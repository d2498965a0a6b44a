import Semisweet.Core.Newtype
import Semisweet.Foundations.Population
import Semisweet.Foundations.Progress

/-!
# The inference pool

Gets, deletes and builds block, and so run on worker threads of their own, the `InferencePool`
(`src/daemon/inference.rs`). A handler that calls `run` sends its closure down an unbounded
channel, and awaits what the closure returns on a `oneshot`. A worker takes closures off the
channel and runs them; one that panics drops its `oneshot`, so that "the awaiting handler already
unblocks with `Err(DaemonShutdown)`", and is caught, so that "one bad job can't permanently kill"
the worker.

## The model

Any number of calls of `run`, each by a handler that may stop awaiting, and any number of workers.
A closure ends, returning any value or panicking. The pool is dropped when nobody calls it, and a
worker leaves its loop once the channel is then empty.

## What is proved

* `called_run` — the invariant: which calls are where, and what became of their closures.
* `pool_answers` — a call is answered what its own closure returned, or `DaemonShutdown` if that
  panicked; a closure runs at most once, in the order of the calls; and a panic costs no worker.
* `pool_settles` — without new calls every call is answered, after as many steps of the workers as
  there are closures, each taken and run.
-/

namespace Semisweet.Daemon

open Semisweet.Core Semisweet.Foundations

variable {C V W : Type}

/-- A call of `InferencePool::run`. -/
inductive PoolCall (V : Type) where
  /-- Not made yet. -/
  | idle
  /-- Its handler awaits the `oneshot`. -/
  | waiting
  /-- It has returned. -/
  | answered (result : Except Error V)
  /-- Its handler stopped awaiting. -/
  | cancelled

/-- A worker thread of the pool. -/
inductive PoolWorker (C : Type) where
  /-- In `recv`. -/
  | receiving
  /-- Running the closure of a call. -/
  | running (c : C)
  /-- It has left its loop. -/
  | gone

/-- The `InferencePool`, and who calls it. -/
structure InferencePool (C V W : Type) where
  /-- The calls. -/
  call : C → PoolCall V
  /-- The channel, oldest closure first. -/
  channel : List C
  /-- The workers. -/
  worker : W → PoolWorker C
  /-- Whether the pool was dropped. -/
  dropped : Bool

/-- `InferencePool::new`. -/
def InferencePool.new : InferencePool C V W := ⟨fun _ => .idle, [], fun _ => .receiving, false⟩

/-- What is done. -/
inductive PoolAction (C V W : Type) where
  /-- `run`: the closure is sent. -/
  | run (c : C)
  /-- `run`: every worker is gone. -/
  | refuse (c : C)
  /-- A handler stops awaiting. -/
  | cancel (c : C)
  /-- The pool is dropped. -/
  | drop
  /-- A worker takes a closure. -/
  | recv (w : W) (c : C)
  /-- The closure returns a value, or panics. -/
  | finish (w : W) (c : C) (outcome : Option V)
  /-- A worker finds the channel empty and disconnected. -/
  | leave (w : W)

/-- What a call is answered when its closure ends. -/
def poolResult : Option V → Except Error V
  | some v => .ok v
  | none => .error .daemonShutdown

/-- What the end of its closure does to a call. -/
def PoolCall.finish (outcome : Option V) : PoolCall V → PoolCall V
  | .waiting => .answered (poolResult outcome)
  | x => x

/-- The call whose closure is sent. -/
def PoolAction.asks : PoolAction C V W → Option C
  | .run c => some c
  | _ => none

/-- The call whose closure is taken. -/
def PoolAction.starts : PoolAction C V W → Option C
  | .recv _ c => some c
  | _ => none

/-- How a closure of the call ended. -/
def PoolAction.ends [DecidableEq C] (c : C) : PoolAction C V W → Option (Option V)
  | .finish _ c' outcome => if c' = c then some outcome else none
  | _ => none

/-- The calls, in order. -/
def asked (h : History (InferencePool C V W) (PoolAction C V W)) : List C :=
  h.filterMap fun t => t.2.asks

/-- The calls whose closures were taken, in order. -/
def started (h : History (InferencePool C V W) (PoolAction C V W)) : List C :=
  h.filterMap fun t => t.2.starts

/-- How the closures of the call ended. -/
def outcomes [DecidableEq C] (c : C) (h : History (InferencePool C V W) (PoolAction C V W)) :
    List (Option V) :=
  h.filterMap fun t => t.2.ends c

variable [DecidableEq C] [DecidableEq W]

/-- One step of a handler or a worker. -/
inductive PoolStep : InferencePool C V W → PoolAction C V W → InferencePool C V W → Prop
  /-- `sender.send`. -/
  | run {s : InferencePool C V W} {c : C} :
      s.call c = .idle → s.dropped = false → (∃ w, s.worker w ≠ .gone) → PoolStep s (.run c)
        { s with call := Function.update s.call c .waiting, channel := s.channel ++ [c] }
  /-- `sender.send` fails. -/
  | refuse {s : InferencePool C V W} {c : C} :
      s.call c = .idle → s.dropped = false → (∀ w, s.worker w = .gone) → PoolStep s (.refuse c)
        { s with call := Function.update s.call c (.answered (.error .daemonShutdown)) }
  /-- The receiver of the `oneshot` is dropped; the closure stays in the channel. -/
  | cancel {s : InferencePool C V W} {c : C} :
      s.call c = .waiting → PoolStep s (.cancel c)
        { s with call := Function.update s.call c .cancelled }
  /-- A call borrows the pool. -/
  | drop {s : InferencePool C V W} :
      s.dropped = false → (∀ c, s.call c ≠ .waiting) → PoolStep s .drop { s with dropped := true }
  /-- `receiver.recv`. -/
  | recv {s : InferencePool C V W} {w : W} {c : C} {rest : List C} :
      s.worker w = .receiving → s.channel = c :: rest → PoolStep s (.recv w c)
        { s with channel := rest, worker := Function.update s.worker w (.running c) }
  /-- `catch_unwind`, and the next turn of the loop. -/
  | finish {s : InferencePool C V W} {w : W} {c : C} {outcome : Option V} :
      s.worker w = .running c → PoolStep s (.finish w c outcome)
        { s with call := Function.update s.call c ((s.call c).finish outcome)
                 worker := Function.update s.worker w .receiving }
  /-- `receiver.recv` fails. -/
  | leave {s : InferencePool C V W} {w : W} :
      s.worker w = .receiving → s.channel = [] → s.dropped = true → PoolStep s (.leave w)
        { s with worker := Function.update s.worker w .gone }

/-- The runs of a pool. -/
abbrev PoolRun (h : History (InferencePool C V W) (PoolAction C V W)) (s : InferencePool C V W) :
    Prop :=
  Run PoolStep InferencePool.new Always h s

/-! ### Which calls are where -/

/-- The closure of a call has not ended. -/
def InferencePool.Unended (s : InferencePool C V W) (c : C) : Prop :=
  c ∈ s.channel ∨ ∃ w, s.worker w = .running c

/-- Which calls are where, and what became of their closures. -/
structure Called (h : History (InferencePool C V W) (PoolAction C V W))
    (s : InferencePool C V W) : Prop where
  /-- A call that was not made has no closure. -/
  idle : ∀ c, s.call c = .idle → ¬ s.Unended c ∧ outcomes c h = []
  /-- A closure that has not ended has not ended before. -/
  unended : ∀ c, s.Unended c → outcomes c h = []
  /-- One that waits is in the channel once, and with no worker. -/
  channel : s.channel.Nodup ∧ ∀ c ∈ s.channel, ∀ w, s.worker w ≠ .running c
  /-- One that runs is with one worker. -/
  worker : ∀ w w' c, s.worker w = .running c → s.worker w' = .running c → w = w'
  /-- The closure of a call that waits has not ended, and the pool is there. -/
  waiting : ∀ c, s.call c = .waiting → s.dropped = false ∧ s.Unended c
  /-- A call is answered what its closure did. -/
  answered : ∀ c result, s.call c = .answered result →
    ∃ outcome, outcomes c h = [outcome] ∧ result = poolResult outcome
  /-- No closure runs twice. -/
  once : ∀ c, (outcomes c h).length ≤ 1
  /-- Closures are taken in the order of the calls. -/
  order : started h ++ s.channel = asked h
  /-- Workers stay as long as the pool, and its closures. -/
  stays : ∀ w, s.worker w = .gone → s.dropped = true ∧ s.channel = []

section History

variable {h : History (InferencePool C V W) (PoolAction C V W)} {s : InferencePool C V W}
  {a : PoolAction C V W} {c : C}

omit [DecidableEq C] [DecidableEq W] in
@[simp] theorem asked_snoc : asked (h ++ [(s, a)]) = asked h ++ a.asks.toList := by
  rw [asked, List.filterMap_append]
  cases ha : a.asks <;> simp [asked, ha]

omit [DecidableEq C] [DecidableEq W] in
@[simp] theorem started_snoc : started (h ++ [(s, a)]) = started h ++ a.starts.toList := by
  rw [started, List.filterMap_append]
  cases ha : a.starts <;> simp [started, ha]

omit [DecidableEq W] in
@[simp] theorem outcomes_snoc : outcomes c (h ++ [(s, a)]) = outcomes c h ++ (a.ends c).toList := by
  rw [outcomes, List.filterMap_append]
  cases ha : a.ends c <;> simp [outcomes, ha]

end History

variable {h : History (InferencePool C V W) (PoolAction C V W)} {s s' : InferencePool C V W}
  {a : PoolAction C V W}

omit [DecidableEq C] [DecidableEq W] in
theorem called_new [DecidableEq C] : Called [] (InferencePool.new : InferencePool C V W) where
  idle c _ := ⟨by simp [InferencePool.Unended, InferencePool.new], rfl⟩
  unended _ _ := rfl
  channel := by simp [InferencePool.new]
  worker := by simp [InferencePool.new]
  waiting c hc := by cases hc
  answered c result hc := by cases hc
  once := by simp [outcomes]
  order := rfl
  stays := by simp [InferencePool.new]

omit [DecidableEq C] in
/-- Who runs what, once a worker took a closure. -/
theorem running_update_running {w w' : W} {c c' : C} (hw : s.worker w = .receiving) :
    Function.update s.worker w (.running c) w' = .running c' ↔
      (w' = w ∧ c' = c) ∨ s.worker w' = .running c' := by
  by_cases hww : w' = w
  · subst hww
    simp [hw, eq_comm]
  · simp [hww]

omit [DecidableEq C] in
/-- Who runs what, once a worker runs nothing. -/
theorem running_update_of_ne {w w' : W} {c' : C} {x : PoolWorker C} (hx : ∀ c, x ≠ .running c) :
    Function.update s.worker w x w' = .running c' ↔ w' ≠ w ∧ s.worker w' = .running c' := by
  by_cases hww : w' = w
  · subst hww
    simp [hx c']
  · simp [hww]

/-- A closure is sent. -/
theorem called_asks {c : C} (hI : Called h s) (hstep : PoolStep s (.run c) s') :
    Called (h ++ [(s, (.run c))]) s' := by
  cases hstep with
  | run hc hopen halive =>
    obtain ⟨hnew, hnone⟩ := hI.idle c hc
    have hunended : ∀ c', c' ∈ s.channel ++ [c] ∨ (∃ w, s.worker w = .running c') →
        c' = c ∨ s.Unended c' := by
      rintro c' (hmem | hrun)
      · rcases List.mem_append.mp hmem with hmem | hmem
        · exact .inr (.inl hmem)
        · exact .inl (List.mem_singleton.mp hmem)
      · exact .inr (.inr hrun)
    refine ⟨fun c' hc' => ?_, fun c' hc' => ?_, ⟨?_, fun c' hc' w hw => ?_⟩, hI.worker,
      fun c' hc' => ?_, fun c' result hc' => ?_, by simpa [PoolAction.ends] using hI.once, ?_,
      fun w hw => ?_⟩
    · simp only [Function.update_apply] at hc'
      split at hc'
      · cases hc'
      · rename_i hne
        obtain ⟨hno, hnil⟩ := hI.idle c' hc'
        exact ⟨fun hun => hno ((hunended c' hun).resolve_left hne), by simpa [PoolAction.ends]⟩
    · rcases hunended c' hc' with rfl | hun
      · simpa [PoolAction.ends] using hnone
      · simpa [PoolAction.ends] using hI.unended c' hun
    · exact List.Nodup.append hI.channel.1 (List.nodup_singleton c)
        (by simpa using fun hmem => hnew (.inl hmem))
    · rcases List.mem_append.mp hc' with hmem | hmem
      · exact hI.channel.2 c' hmem w hw
      · obtain rfl := List.mem_singleton.mp hmem
        exact hnew (.inr ⟨w, hw⟩)
    · simp only [Function.update_apply] at hc'
      split at hc'
      · rename_i heq
        exact ⟨hopen, .inl (by simp [heq])⟩
      · obtain ⟨ho, hun⟩ := hI.waiting c' hc'
        exact ⟨ho, hun.imp_left (List.mem_append_left _)⟩
    · simp only [Function.update_apply] at hc'
      split at hc'
      · cases hc'
      · simpa [PoolAction.ends] using hI.answered c' result hc'
    · simp [PoolAction.asks, PoolAction.starts, ← hI.order]
    · exact absurd ((hI.stays w hw).1.symm.trans hopen) (by simp)

/-- A handler stops awaiting. -/
theorem called_cancels {c : C} (hI : Called h s) (hstep : PoolStep s (.cancel c) s') :
    Called (h ++ [(s, (.cancel c))]) s' := by
  cases hstep with
  | cancel hc =>
    have hout : ∀ c', outcomes c' (h ++ [(s, .cancel c)]) = outcomes c' h := by
      simp [PoolAction.ends]
    refine ⟨fun c' hc' => ?_, fun c' hc' => (hout c').trans (hI.unended c' hc'), hI.channel,
      hI.worker, fun c' hc' => ?_, fun c' result hc' => ?_, fun c' => by
        rw [hout]
        exact hI.once c', by simpa [PoolAction.asks, PoolAction.starts] using hI.order, hI.stays⟩
    all_goals simp only [Function.update_apply] at hc'; split at hc'
    · cases hc'
    · rw [hout]
      exact hI.idle c' hc'
    · cases hc'
    · exact hI.waiting c' hc'
    · cases hc'
    · rw [hout]
      exact hI.answered c' result hc'

/-- A worker takes a closure. -/
theorem called_takes {w : W} {c : C} (hI : Called h s) (hstep : PoolStep s (.recv w c) s') :
    Called (h ++ [(s, (.recv w c))]) s' := by
  cases hstep with
  | @recv w c rest hw hq =>
    have hout : ∀ c', outcomes c' (h ++ [(s, .recv w c)]) = outcomes c' h := by
      simp [PoolAction.ends]
    obtain ⟨hnodup, hnone⟩ := hI.channel
    rw [hq] at hnodup
    obtain ⟨hnot, hnodup⟩ := List.nodup_cons.mp hnodup
    have hc : ∀ w', s.worker w' ≠ .running c := hnone c (by simp [hq])
    -- the closure goes from the channel to the worker
    have hunended : ∀ c', (c' ∈ rest ∨ ∃ w', Function.update s.worker w (.running c) w' =
        .running c') ↔ s.Unended c' := by
      intro c'
      simp only [InferencePool.Unended, hq, List.mem_cons, running_update_running hw, exists_or,
        exists_and_right, exists_eq, true_and]
      tauto
    refine ⟨fun c' hc' => ⟨fun hun => (hI.idle c' hc').1 ((hunended c').mp hun), ?_⟩,
      fun c' hun => (hout c').trans (hI.unended c' ((hunended c').mp hun)),
      ⟨hnodup, fun c' hc' w' hw' => ?_⟩, fun w₁ w₂ c' h₁ h₂ => ?_, fun c' hc' => ?_,
      fun c' result hc' => ?_, fun c' => ?_, ?_, fun w' hw' => ?_⟩
    · rw [hout]
      exact (hI.idle c' hc').2
    · rcases (running_update_running hw).mp hw' with ⟨-, rfl⟩ | hrun
      · exact hnot hc'
      · exact hnone c' (by simp [hq, hc']) w' hrun
    · rcases (running_update_running hw).mp h₁ with ⟨rfl, rfl⟩ | hrun₁ <;>
        rcases (running_update_running hw).mp h₂ with ⟨rfl, hcc⟩ | hrun₂
      · rfl
      · exact absurd hrun₂ (hc w₂)
      · exact absurd (hcc ▸ hrun₁) (hc w₁)
      · exact hI.worker w₁ w₂ c' hrun₁ hrun₂
    · obtain ⟨hopen, hun⟩ := hI.waiting c' hc'
      exact ⟨hopen, (hunended c').mpr hun⟩
    · rw [hout]
      exact hI.answered c' result hc'
    · rw [hout]
      exact hI.once c'
    · simpa [PoolAction.asks, PoolAction.starts, hq] using hI.order
    · have hne : w' ≠ w := by
        rintro rfl
        simp at hw'
      simp only [Function.update_of_ne hne] at hw'
      exact absurd (hq.symm.trans (hI.stays w' hw').2) (by simp)

/-- A closure ends. -/
theorem called_ends {w : W} {c : C} {outcome : Option V} (hI : Called h s)
    (hstep : PoolStep s (.finish w c outcome) s') :
    Called (h ++ [(s, (.finish w c outcome))]) s' := by
  cases hstep with
  | finish hw =>
    have hout : outcomes c (h ++ [(s, .finish w c outcome)]) = [outcome] := by
      simp [PoolAction.ends, hI.unended c (.inr ⟨w, hw⟩)]
    have hother : ∀ c', c' ≠ c → outcomes c' (h ++ [(s, .finish w c outcome)]) = outcomes c' h :=
      fun c' hne => by simp [PoolAction.ends, hne.symm]
    have hfree : ∀ c' : C, PoolWorker.receiving ≠ .running c' := by simp
    have hgone : ∀ c', (c' ∈ s.channel ∨ ∃ w', Function.update s.worker w .receiving w' =
        .running c') ↔ c' ≠ c ∧ s.Unended c' := by
      intro c'
      simp only [running_update_of_ne hfree, InferencePool.Unended]
      constructor
      · rintro (hmem | ⟨w', hne, hrun⟩)
        · exact ⟨fun heq => hI.channel.2 c' hmem w (heq ▸ hw), .inl hmem⟩
        · exact ⟨fun heq => hne (hI.worker w' w c' hrun (heq ▸ hw)), .inr ⟨w', hrun⟩⟩
      · rintro ⟨hne, hmem | ⟨w', hrun⟩⟩
        · exact .inl hmem
        · refine .inr ⟨w', fun heq => hne ?_, hrun⟩
          rw [heq, hw] at hrun
          exact (PoolWorker.running.inj hrun).symm
    -- the handler that waits for this closure is answered what it did
    have hcall : (s.call c).finish outcome ≠ .idle ∧ (s.call c).finish outcome ≠ .waiting ∧
        ∀ result, (s.call c).finish outcome = .answered result → result = poolResult outcome := by
      have hun : s.Unended c := .inr ⟨w, hw⟩
      cases hc : s.call c with
      | idle => exact absurd hun (hI.idle c hc).1
      | waiting => simp [PoolCall.finish, eq_comm]
      | answered result =>
        obtain ⟨outcome', hone, -⟩ := hI.answered c result hc
        simp [hI.unended c hun] at hone
      | cancelled => simp [PoolCall.finish]
    refine ⟨fun c' hc' => ?_, fun c' hun => ?_, ⟨hI.channel.1, fun c' hc' w' hw' => ?_⟩,
      fun w₁ w₂ c' h₁ h₂ => ?_, fun c' hc' => ?_, fun c' result hc' => ?_, fun c' => ?_, ?_,
      fun w' hw' => ?_⟩
    · have hne : c' ≠ c := by
        rintro rfl
        exact hcall.1 (by simpa using hc')
      simp only [Function.update_of_ne hne] at hc'
      obtain ⟨hno, hnil⟩ := hI.idle c' hc'
      exact ⟨fun hun => hno ((hgone c').mp hun).2, (hother c' hne).trans hnil⟩
    · obtain ⟨hne, hun⟩ := (hgone c').mp hun
      exact (hother c' hne).trans (hI.unended c' hun)
    · exact hI.channel.2 c' hc' w' ((running_update_of_ne hfree).mp hw').2
    · exact hI.worker w₁ w₂ c' ((running_update_of_ne hfree).mp h₁).2
        ((running_update_of_ne hfree).mp h₂).2
    · have hne : c' ≠ c := by
        rintro rfl
        exact hcall.2.1 (by simpa using hc')
      simp only [Function.update_of_ne hne] at hc'
      obtain ⟨hopen, hun⟩ := hI.waiting c' hc'
      exact ⟨hopen, (hgone c').mpr ⟨hne, hun⟩⟩
    · by_cases hne : c' = c
      · subst hne
        exact ⟨outcome, hout, hcall.2.2 result (by simpa using hc')⟩
      · simp only [Function.update_of_ne hne] at hc'
        rw [hother c' hne]
        exact hI.answered c' result hc'
    · by_cases hne : c' = c
      · rw [hne, hout, List.length_singleton]
      · rw [hother c' hne]
        exact hI.once c'
    · simpa [PoolAction.asks, PoolAction.starts] using hI.order
    · have hne : w' ≠ w := by
        rintro rfl
        simp at hw'
      simp only [Function.update_of_ne hne] at hw'
      exact hI.stays w' hw'

/-- A worker leaves. -/
theorem called_leaves {w : W} (hI : Called h s) (hstep : PoolStep s (.leave w) s') :
    Called (h ++ [(s, (.leave w))]) s' := by
  cases hstep with
  | leave hw hq hdropped =>
    have hout : ∀ c', outcomes c' (h ++ [(s, .leave w)]) = outcomes c' h := by
      simp [PoolAction.ends]
    have hfree : ∀ c' : C, PoolWorker.gone ≠ .running c' := by simp
    have hrun : ∀ w' c', Function.update s.worker w .gone w' = .running c' →
        s.worker w' = .running c' := fun w' c' hw' => ((running_update_of_ne hfree).mp hw').2
    have hunended : ∀ c', (c' ∈ s.channel ∨ ∃ w', Function.update s.worker w .gone w' =
        .running c') → s.Unended c' := fun c' =>
      Or.imp_right fun ⟨w', hw'⟩ => ⟨w', hrun w' c' hw'⟩
    refine ⟨fun c' hc' => ⟨fun hun => (hI.idle c' hc').1 (hunended c' hun), ?_⟩,
      fun c' hun => (hout c').trans (hI.unended c' (hunended c' hun)),
      ⟨hI.channel.1, fun c' hc' w' hw' => hI.channel.2 c' hc' w' (hrun w' c' hw')⟩,
      fun w₁ w₂ c' h₁ h₂ => hI.worker w₁ w₂ c' (hrun w₁ c' h₁) (hrun w₂ c' h₂), fun c' hc' => ?_,
      fun c' result hc' => ?_, fun c' => ?_, ?_, fun _ _ => ⟨hdropped, hq⟩⟩
    · rw [hout]
      exact (hI.idle c' hc').2
    · rw [(hI.waiting c' hc').1] at hdropped
      cases hdropped
    · rw [hout]
      exact hI.answered c' result hc'
    · rw [hout]
      exact hI.once c'
    · simpa [PoolAction.asks, PoolAction.starts] using hI.order

theorem called_step [Nonempty W] (hI : Called h s) (hstep : PoolStep s a s') :
    Called (h ++ [(s, a)]) s' := by
  have hstep' := hstep
  cases hstep with
  | run => exact called_asks hI hstep'
  | refuse _ hopen hgone =>
    -- a pool that is there has its workers
    obtain ⟨w⟩ := ‹Nonempty W›
    exact absurd ((hI.stays w (hgone w)).1.symm.trans hopen) (by simp)
  | cancel => exact called_cancels hI hstep'
  | drop hopen hno =>
    have hout : ∀ c', outcomes c' (h ++ [(s, .drop)]) = outcomes c' h := by simp [PoolAction.ends]
    exact ⟨fun c hc => ⟨(hI.idle c hc).1, (hout c).trans (hI.idle c hc).2⟩,
      fun c hc => (hout c).trans (hI.unended c hc), hI.channel, hI.worker,
      fun c hc => absurd hc (hno c), fun c result hc => by
        rw [hout]
        exact hI.answered c result hc, fun c => by
        rw [hout]
        exact hI.once c, by simpa [PoolAction.asks, PoolAction.starts] using hI.order,
      fun w hw => ⟨rfl, (hI.stays w hw).2⟩⟩
  | recv => exact called_takes hI hstep'
  | finish => exact called_ends hI hstep'
  | leave => exact called_leaves hI hstep'

/-- **Which calls are where**, in every run. -/
theorem called_run [Nonempty W] (hrun : PoolRun h s) : Called h s :=
  hrun.invariant called_new fun _ _ _ _ _ hI _ hs => called_step hI hs

/-! ### What a call is answered -/

/-- What a pool does for those who call it. -/
structure PoolServes (h : History (InferencePool C V W) (PoolAction C V W))
    (s : InferencePool C V W) : Prop where
  /-- An answer is what the call's own closure returned, or `DaemonShutdown` if it panicked. -/
  own : ∀ c result, s.call c = .answered result →
    ∃ outcome, outcomes c h = [outcome] ∧ result = poolResult outcome
  /-- A closure is run once. -/
  once : ∀ c, (outcomes c h).length ≤ 1
  /-- First come, first served. -/
  order : started h <+: asked h
  /-- A call that waits has its closure in the channel, or with a worker. -/
  waits : ∀ c, s.call c = .waiting → s.Unended c
  /-- No panic costs a worker: one leaves after the pool is dropped and has no closure left. -/
  stays : ∀ w, s.worker w = .gone → s.dropped = true ∧ s.channel = []

/-- **The pool answers every call what its own closure did**, in every run: with any calls, any
handlers that give up, and any closures that panic. -/
theorem pool_answers [Nonempty W] (h : History (InferencePool C V W) (PoolAction C V W))
    (s : InferencePool C V W) (hrun : PoolRun h s) : PoolServes h s := by
  have hI := called_run hrun
  exact ⟨hI.answered, hI.once, ⟨s.channel, hI.order⟩, fun c hc => (hI.waiting c hc).2, hI.stays⟩

/-- A closure that panics costs its call an answer, and the next call nothing. -/
theorem pool_answers_panicked : ∃ (h : History (InferencePool Bool ℕ Unit) _) (s : _),
    PoolServes h s ∧ s.call false = .answered (.error .daemonShutdown) ∧
      s.call true = .answered (.ok 42) := by
  have h₀ : PoolRun (C := Bool) (V := ℕ) (W := Unit) [] .new := .start
  have h₁ := h₀.next trivial (.run (c := false) rfl rfl ⟨(), by simp [InferencePool.new]⟩)
  have h₂ := h₁.next trivial (.run (c := true) rfl rfl ⟨(), by simp [InferencePool.new]⟩)
  have h₃ := h₂.next trivial (.recv (w := ()) rfl rfl)
  have h₄ := h₃.next (a := .finish () false none) trivial (.finish rfl)
  have h₅ := h₄.next trivial (.recv (w := ()) rfl rfl)
  have h₆ := h₅.next (a := .finish () true (some 42)) trivial (.finish rfl)
  exact ⟨_, _, pool_answers _ _ h₆, rfl, rfl⟩

/-! ### When a call is answered -/

/-- The steps of the workers that serve calls. -/
def PoolAction.Serves : PoolAction C V W → Prop
  | .recv _ _ | .finish _ _ _ => True
  | _ => False

/-- A worker runs a closure. -/
def PoolWorker.Running (x : PoolWorker C) : Prop := ∃ c, x = .running c

/-- The steps that the workers have ahead: a closure is taken, and then run. -/
noncomputable def InferencePool.work (s : InferencePool C V W) : ℕ :=
  2 * s.channel.length + population PoolWorker.Running s.worker

theorem work_lt [Finite W] (hserves : a.Serves) (hstep : PoolStep s a s') : s'.work < s.work := by
  cases hstep with
  | @recv w c rest hw hq =>
    have hnot : ¬ (s.worker w).Running := by simp [hw, PoolWorker.Running]
    simp only [InferencePool.work, hq, List.length_cons,
      population_enter (Set.toFinite _) hnot ⟨c, rfl⟩]
    omega
  | @finish w c outcome hw =>
    have hin : (s.worker w).Running := ⟨c, hw⟩
    have hout : ¬ (PoolWorker.receiving : PoolWorker C).Running := by simp [PoolWorker.Running]
    have hleave := population_leave (Set.toFinite _) hin hout
    simp only [InferencePool.work]
    omega
  | run | refuse | cancel | drop | leave => cases hserves

/-- Workers that have nothing to do have done everything. -/
theorem not_unended_of_settled [Nonempty W] (hI : Called h s)
    (hset : Settled PoolStep PoolAction.Serves s) (c : C) : ¬ s.Unended c := by
  have hidle : ∀ w c, s.worker w ≠ .running c := fun w c hw =>
    hset (.finish w c none) _ trivial (.finish hw)
  rintro (hmem | ⟨w, hw⟩)
  · -- some worker would take the oldest closure
    obtain ⟨w⟩ := ‹Nonempty W›
    cases hq : s.channel with
    | nil => simp [hq] at hmem
    | cons c' rest =>
      cases hw : s.worker w with
      | receiving => exact hset (.recv w c') _ trivial (.recv hw hq)
      | running c => exact hidle w c hw
      | gone => exact absurd (hq.symm.trans (hI.stays w hw).2) (by simp)
  · exact hidle w c hw

/-- What happens to those who wait, once no call comes in or is given up. -/
structure PoolSettles (h : History (InferencePool C V W) (PoolAction C V W))
    (s : InferencePool C V W) : Prop where
  /-- The workers have so many steps ahead. -/
  bounded : ∀ h' s', Run PoolStep s (Own PoolAction.Serves) h' s' → h'.length ≤ s.work
  /-- They can take them to the end. -/
  ends : ∃ h' s', Run PoolStep s (Own PoolAction.Serves) h' s' ∧
    Settled PoolStep PoolAction.Serves s'
  /-- And then every call is answered. -/
  answered : ∀ h' s', Run PoolStep s (Own PoolAction.Serves) h' s' →
    Settled PoolStep PoolAction.Serves s' → ∀ c, s.call c = .waiting →
      ∃ outcome, outcomes c (h ++ h') = [outcome] ∧ s'.call c = .answered (poolResult outcome)

theorem waiting_or_answered {c : C} (hc : s.call c = .waiting) {h' : History _ _}
    (hown : Run PoolStep s (Own PoolAction.Serves) h' s') :
    s'.call c = .waiting ∨ ∃ result, s'.call c = .answered result := by
  refine hown.invariant_state (I := fun s' => s'.call c = .waiting ∨
    ∃ result, s'.call c = .answered result) (.inl hc) fun _ t b t' hI hserves hstep => ?_
  cases hstep with
  | recv => exact hI
  | @finish w c' outcome hw =>
    by_cases hne : c = c'
    · subst hne
      rcases hI with hI | ⟨result, hI⟩ <;> simp [hI, PoolCall.finish]
    · simpa [Function.update_of_ne hne] using hI
  | run | refuse | cancel | drop | leave => cases hserves

/-- **Every call that waits is answered**, after no more than two steps of the workers for each
closure, in any order: nothing the pool did before can keep them from it. -/
theorem pool_settles [Finite W] [Nonempty W]
    (h : History (InferencePool C V W) (PoolAction C V W)) (s : InferencePool C V W)
    (hrun : PoolRun h s) : PoolSettles h s where
  bounded h' s' hown := by
    have := Run.length_add_le (μ := InferencePool.work) (fun _ _ _ => work_lt) hown
    omega
  ends := Run.exists_settled (μ := InferencePool.work) (fun _ _ _ => work_lt) s
  answered h' s' hown hset c hc := by
    have hI := called_run (hrun.append_own hown)
    have hno := not_unended_of_settled hI hset
    rcases waiting_or_answered hc hown with hwait | ⟨result, hres⟩
    · exact absurd (hI.waiting c hwait).2 (hno c)
    · obtain ⟨outcome, hout, rfl⟩ := hI.answered c result hres
      exact ⟨outcome, hout, hres⟩

/-- A call that waits behind another is answered. -/
theorem pool_settles_two : ∃ (h : History (InferencePool Bool ℕ Unit) _) (s : _),
    PoolSettles h s ∧ s.call true = .waiting ∧ s.channel = [false, true] := by
  have h₀ : PoolRun (C := Bool) (V := ℕ) (W := Unit) [] .new := .start
  have h₁ := h₀.next trivial (.run (c := false) rfl rfl ⟨(), by simp [InferencePool.new]⟩)
  have h₂ := h₁.next trivial (.run (c := true) rfl rfl ⟨(), by simp [InferencePool.new]⟩)
  exact ⟨_, _, pool_settles _ _ h₂, rfl, rfl⟩

end Semisweet.Daemon
