import Semisweet.Daemon.WriteBehind

/-!
# Whose shadow it is

A job recognises its shadow by its allocation. That works because no two live allocations
share an address, and a job lives in one place at a time: with the handler that made it, in
the queue, or with a worker.

## What is proved

* `step_jobs` — what a step does to the jobs: apart from `set`, it moves jobs between places
  and drops them, and shadows are only removed.
* `tokens_run` — in every state reached, two jobs with one address are one job in one place,
  and a shadow with a job's address is that job's shadow, in its slot.
* `setOnce_run` — every job was set once, by a handler.
-/

namespace Semisweet.Daemon

open Semisweet.Core Semisweet.Foundations

variable {R : Type} [Field R] {newV5 : Uuid → List UInt8 → Uuid} {W : Type} {s s' : State R newV5 W}

/-- The job is with a handler, in the queue or with a worker. -/
def State.Live (s : State R newV5 W) (job : WriteJob newV5) : Prop := ∃ p, s.jobAt p = some job

/-- The jobs of `s'` are jobs of `s`, moved but never two to one place; its shadows are
shadows of `s`. -/
def Moves (s s' : State R newV5 W) : Prop :=
  (∃ f : Place W → Place W,
    f.Injective ∧ ∀ p job, s'.jobAt p = some job → s.jobAt (f p) = some job) ∧
    ∀ slot v, s'.pending slot = some v → s.pending slot = some v

/-- A step of a handler that takes no job on. -/
theorem moves_toHandler {t : State R newV5 W} {c : ℕ} {x : Handler newV5}
    (hjobs : ∀ p, t.jobAt p = s.jobAt p)
    (hx : ∀ job, x.job = some job → (s.handler c).job = some job)
    (hpend : ∀ slot v, t.pending slot = some v → s.pending slot = some v) :
    Moves s (t.toHandler c x) := by
  refine ⟨⟨id, Function.injective_id, fun p job hp => ?_⟩, hpend⟩
  by_cases hc : p = .conn c
  · subst hc
    rw [State.jobAt_toHandler_self] at hp
    exact hx job hp
  · rwa [State.jobAt_toHandler_of_ne _ _ _ hc, hjobs] at hp

/-- A job goes from its handler to the end of the queue. -/
theorem moves_push {c : ℕ} {job : WriteJob newV5} (hc : s.handler c = .shadowed job) :
    Moves s ({ s with queue := s.queue ++ [job] }.toHandler c .idle) := by
  classical
  refine ⟨⟨Equiv.swap (.conn c) (.queued s.queue.length), (Equiv.swap _ _).injective,
    fun p j hp => ?_⟩,
    fun _ _ => id⟩
  by_cases hpc : p = .conn c
  · subst hpc
    simp [Handler.job] at hp
  · rw [State.jobAt_toHandler_of_ne _ _ _ hpc] at hp
    by_cases hpq : p = .queued s.queue.length
    · subst hpq
      rw [Equiv.swap_apply_right]
      simpa [State.jobAt, hc, Handler.job] using hp
    · rw [Equiv.swap_apply_of_ne_of_ne hpc hpq]
      cases p with
      | conn c' => exact hp
      | worker w => exact hp
      | queued i =>
        simp only [State.jobAt, List.getElem?_append] at hp ⊢
        split at hp
        · exact hp
        · rename_i hi
          have hi' : i - s.queue.length = 0 := by
            by_contra hne
            rw [List.getElem?_eq_none (by simp; omega)] at hp
            cases hp
          exact absurd (congrArg _ (show i = s.queue.length by omega)) hpq

/-- A new job is with its handler; the others stay where they are. -/
theorem jobAt_set {c : ℕ} {job : WriteJob newV5} {p : Place W} {j : WriteJob newV5}
    (hp : ({ s with pending := s.pending.insert job.slot job.value
                    clock := s.clock + 1 }.toHandler c (.shadowed job)).jobAt p = some j) :
    (p = .conn c ∧ j = job) ∨ (p ≠ .conn c ∧ s.jobAt p = some j) := by
  by_cases hpc : p = .conn c
  · subst hpc
    simp only [State.jobAt_toHandler_self, Handler.job, Option.some.injEq] at hp
    exact .inl ⟨rfl, hp.symm⟩
  · rw [State.jobAt_toHandler_of_ne _ _ _ hpc] at hp
    exact .inr ⟨hpc, by cases p <;> exact hp⟩

variable [DecidableEq W] {capacity : ℕ} {a : Action newV5 W}

/-- A step of a worker that takes no job on. -/
theorem moves_toWorker {t : State R newV5 W} {w : W} {y : Worker R newV5}
    (hjobs : ∀ p, t.jobAt p = s.jobAt p)
    (hy : ∀ job, y.job = some job → (s.worker w).job = some job)
    (hpend : ∀ slot v, t.pending slot = some v → s.pending slot = some v) :
    Moves s (t.toWorker w y) := by
  refine ⟨⟨id, Function.injective_id, fun p job hp => ?_⟩, hpend⟩
  by_cases hw : p = .worker w
  · subst hw
    rw [State.jobAt_toWorker_self] at hp
    exact hy job hp
  · rwa [State.jobAt_toWorker_of_ne _ _ _ hw, hjobs] at hp

/-- Where a job was, before the first of the queue went to a worker. -/
def Place.beforeRecv (w : W) : Place W → Place W
  | .conn c => .conn c
  | .queued i => .queued (i + 1)
  | .worker w' => if w' = w then .queued 0 else .worker w'

theorem Place.beforeRecv_injective (w : W) : (Place.beforeRecv w).Injective := by
  intro p q hpq
  cases p <;> cases q <;> simp only [Place.beforeRecv] at hpq <;> grind

/-- The first job of the queue goes to a worker, and the others move up. -/
theorem moves_recv {w : W} {job : WriteJob newV5} {rest : List (WriteJob newV5)}
    (hq : s.queue = job :: rest) :
    Moves s ({ s with queue := rest }.toWorker w (.preparing job)) := by
  refine ⟨⟨Place.beforeRecv w, Place.beforeRecv_injective w, fun p j hp => ?_⟩, fun _ _ => id⟩
  by_cases hpw : p = .worker w
  · subst hpw
    rw [State.jobAt_toWorker_self] at hp
    simpa [Place.beforeRecv, State.jobAt, hq, Worker.job] using hp
  · rw [State.jobAt_toWorker_of_ne _ _ _ hpw] at hp
    cases p with
    | conn c => exact hp
    | queued i => simpa [Place.beforeRecv, State.jobAt, hq] using hp
    | worker w' =>
      have hne : w' ≠ w := fun h => hpw (h ▸ rfl)
      simp only [Place.beforeRecv, if_neg hne]
      exact hp

/-- **What a step does to the jobs**: it sets a new one, or it moves some and drops some. -/
theorem step_jobs (hstep : Step capacity s a s') :
    (∃ c job, a = .set c job ∧ s.handler c = .idle ∧ s.Fresh job.value.addr ∧
      job.value.birth = s.clock ∧
      s' = { s with pending := s.pending.insert job.slot job.value
                    clock := s.clock + 1 }.toHandler c (.shadowed job)) ∨
    ((∀ c job, a ≠ .set c job) ∧ Moves s s' ∧ s'.clock = s.clock) := by
  cases hstep with
  | set hc hfresh hbirth => exact .inl ⟨_, _, rfl, hc, hfresh, hbirth, rfl⟩
  | push hc _ => exact .inr ⟨by simp, moves_push hc, rfl⟩
  | recv _ hq => exact .inr ⟨by simp, moves_recv hq, rfl⟩
  | reject hc _ =>
    exact .inr ⟨by simp, moves_toHandler (fun _ => rfl) (by simp [hc, Handler.job])
      fun _ _ => id, rfl⟩
  | unshadow _ =>
    exact .inr ⟨by simp, moves_toHandler (fun p => by cases p <;> rfl) (by simp [Handler.job])
      fun _ _ => PendingWrites.removeIf_eq_some, rfl⟩
  | getHit _ _ =>
    exact .inr ⟨by simp, ⟨⟨id, Function.injective_id, fun _ _ => id⟩, fun _ _ => id⟩, rfl⟩
  | getMiss _ _ =>
    exact .inr ⟨by simp, moves_toHandler (fun _ => rfl) (by simp [Handler.job]) fun _ _ => id, rfl⟩
  | @getFind _ _ found _ _ =>
    exact .inr ⟨by simp, moves_toHandler (fun _ => rfl) (by cases found <;> simp [Handler.job])
      fun _ _ => id, rfl⟩
  | getLoad _ =>
    exact .inr ⟨by simp, moves_toHandler (fun _ => rfl) (by simp [Handler.job]) fun _ _ => id, rfl⟩
  | del _ =>
    exact .inr ⟨by simp, moves_toHandler (fun p => by cases p <;> rfl) (by simp [Handler.job])
      fun _ _ => PendingWrites.remove_eq_some, rfl⟩
  | @delFind _ _ _ found _ _ =>
    exact .inr ⟨by simp, moves_toHandler (fun _ => rfl) (by cases found <;> simp [Handler.job])
      fun _ _ => id, rfl⟩
  | @delVector _ _ _ _ outcome _ _ =>
    exact .inr ⟨by simp, moves_toHandler (fun p => by cases p <;> rfl)
      (by cases outcome <;> simp [Handler.job])
      fun _ _ => id, rfl⟩
  | delObject _ _ =>
    exact .inr ⟨by simp, moves_toHandler (fun p => by cases p <;> rfl)
      (by simp [Handler.job]) fun _ _ => id, rfl⟩
  | prepared hw =>
    exact .inr ⟨by simp, moves_toWorker (fun _ => rfl) (by simp [hw, Worker.job])
      fun _ _ => id, rfl⟩
  | @unprepared _ _ outcome _ _ =>
    exact .inr ⟨by simp, moves_toWorker (fun _ => rfl)
      (by cases outcome <;> simp [Worker.unprepared, Worker.job])
      fun _ _ => id, rfl⟩
  | check hw =>
    refine .inr ⟨by simp, moves_toWorker (fun _ => rfl) ?_ fun _ _ => id, rfl⟩
    split <;> simp [hw, Worker.job]
  | @put _ _ outcome _ hw _ =>
    exact .inr ⟨by simp, moves_toWorker (fun p => by cases p <;> rfl)
      (by cases outcome <;> simp [hw, Worker.afterPut, Worker.job]) fun _ _ => id, rfl⟩
  | @upsert _ _ outcome _ hw _ =>
    exact .inr ⟨by simp, moves_toWorker (fun p => by cases p <;> rfl)
      (by cases outcome <;> simp [hw, Worker.afterUpsert, Worker.job]) fun _ _ => id, rfl⟩
  | cleanup _ =>
    exact .inr ⟨by simp, moves_toWorker (fun p => by cases p <;> rfl) (by simp [Worker.job])
      fun _ _ => PendingWrites.removeIf_eq_some, rfl⟩

/-! ### How jobs end -/

/-- The job that ends here without a look at its shadow: `prepare` failed, or the job panicked. -/
def Action.abandons : Action newV5 W → Option (WriteJob newV5)
  | .prepare _ job .error => some job
  | .prepare _ job .panic => some job
  | .put _ job .panic => some job
  | .upsert _ job .panic => some job
  | _ => none

/-- The job whose shadow is dropped here, and that ends here. -/
def Action.drops : Action newV5 W → Option (WriteJob newV5)
  | .unshadow _ job => some job
  | .cleanup _ job => some job
  | _ => none

omit [DecidableEq W] in
/-- A handler's step ends at most its own job. -/
theorem live_toHandler {t : State R newV5 W} {c : ℕ} {x : Handler newV5} {job : WriteJob newV5}
    (hjobs : ∀ p, t.jobAt p = s.jobAt p) (hl : s.Live job) :
    (t.toHandler c x).Live job ∨ ((s.handler c).job = some job ∧ x.job ≠ some job) := by
  obtain ⟨p, hp⟩ := hl
  by_cases hc : p = .conn c
  · subst hc
    by_cases hx : x.job = some job
    · exact .inl ⟨.conn c, by rw [State.jobAt_toHandler_self, hx]⟩
    · exact .inr ⟨hp, hx⟩
  · exact .inl ⟨p, by rwa [State.jobAt_toHandler_of_ne _ _ _ hc, hjobs]⟩

/-- A worker's step ends at most its own job. -/
theorem live_toWorker {t : State R newV5 W} {w : W} {y : Worker R newV5} {job : WriteJob newV5}
    (hjobs : ∀ p, t.jobAt p = s.jobAt p) (hl : s.Live job) :
    (t.toWorker w y).Live job ∨ ((s.worker w).job = some job ∧ y.job ≠ some job) := by
  obtain ⟨p, hp⟩ := hl
  by_cases hw : p = .worker w
  · subst hw
    by_cases hy : y.job = some job
    · exact .inl ⟨.worker w, by rw [State.jobAt_toWorker_self, hy]⟩
    · exact .inr ⟨hp, hy⟩
  · exact .inl ⟨p, by rwa [State.jobAt_toWorker_of_ne _ _ _ hw, hjobs]⟩

omit [DecidableEq W] in
/-- Queueing a job ends none. -/
theorem live_push {c : ℕ} {job pushed : WriteJob newV5} (hc : s.handler c = .shadowed pushed)
    (hl : s.Live job) :
    ({ s with queue := s.queue ++ [pushed] }.toHandler c .idle).Live job := by
  obtain ⟨p, hp⟩ := hl
  cases p with
  | conn c' =>
    by_cases hcc : c' = c
    · subst hcc
      refine ⟨.queued s.queue.length, ?_⟩
      simpa [State.jobAt, State.toHandler, hc, Handler.job] using hp
    · exact ⟨.conn c', by simpa [State.jobAt, State.toHandler, Function.update_of_ne hcc] using hp⟩
  | queued i =>
    refine ⟨.queued i, ?_⟩
    exact (List.getElem?_append_left (List.getElem?_eq_some_iff.mp hp).1).trans hp
  | worker w => exact ⟨.worker w, hp⟩

/-- Taking a job from the queue ends none. -/
theorem live_recv {w : W} {job taken : WriteJob newV5} {rest : List (WriteJob newV5)}
    (hw : s.worker w = .waiting) (hq : s.queue = taken :: rest) (hl : s.Live job) :
    ({ s with queue := rest }.toWorker w (.preparing taken)).Live job := by
  obtain ⟨p, hp⟩ := hl
  cases p with
  | conn c => exact ⟨.conn c, hp⟩
  | queued i =>
    cases i with
    | zero =>
      refine ⟨.worker w, ?_⟩
      rw [State.jobAt_toWorker_self]
      simpa [State.jobAt, hq, Worker.job] using hp
    | succ i => exact ⟨.queued i, by simpa [State.jobAt, State.toWorker, hq] using hp⟩
  | worker w' =>
    refine ⟨.worker w', ?_⟩
    have hne : w' ≠ w := by
      rintro rfl
      simp [State.jobAt, hw, Worker.job] at hp
    simpa [State.jobAt, State.toWorker, Function.update_of_ne hne] using hp

/-- **How a job ends**: its shadow is dropped, its check fails, or it is abandoned. -/
theorem live_step {job : WriteJob newV5} (hstep : Step capacity s a s') (hl : s.Live job) :
    s'.Live job ∨ (a.drops = some job ∧ s'.pending = (s.pending.removeIf job.slot job.value).1) ∨
      ((∃ w, a = .check w job) ∧ s.pending.holds job.slot job.value = false) ∨
        a.abandons = some job := by
  cases hstep with
  | push hc _ => exact .inl (live_push hc hl)
  | recv hw hq => exact .inl (live_recv hw hq hl)
  | getHit _ _ => exact .inl hl
  | unshadow hc =>
    rcases live_toHandler (fun p => by cases p <;> rfl) hl with hl | ⟨hj, -⟩
    · exact .inl hl
    · simp only [hc, Handler.job, Option.some.injEq] at hj
      subst hj
      exact .inr (.inl ⟨rfl, rfl⟩)
  | cleanup hw =>
    rcases live_toWorker (fun p => by cases p <;> rfl) hl with hl | ⟨hj, -⟩
    · exact .inl hl
    · simp only [hw, Worker.job, Option.some.injEq] at hj
      subst hj
      exact .inr (.inl ⟨rfl, rfl⟩)
  | @check w prepared hw =>
    rcases live_toWorker (fun p => by cases p <;> rfl) hl with hl | ⟨hj, hy⟩
    · exact .inl hl
    · simp only [hw, Worker.job, Option.some.injEq] at hj
      subst hj
      refine .inr (.inr (.inl ⟨⟨w, rfl⟩, ?_⟩))
      by_contra hholds
      exact hy (by simp [hholds, Worker.job])
  | @unprepared w failed outcome hw hne =>
    rcases live_toWorker (fun p => by cases p <;> rfl) hl with hl | ⟨hj, -⟩
    · exact .inl hl
    · simp only [hw, Worker.job, Option.some.injEq] at hj
      subst hj
      refine .inr (.inr (.inr ?_))
      cases outcome with
      | ok => exact absurd rfl hne
      | error => rfl
      | panic => rfl
  | @put w prepared outcome applied hw _ =>
    rcases live_toWorker (fun p => by cases p <;> rfl) hl with hl | ⟨hj, hy⟩
    · exact .inl hl
    · simp only [hw, Worker.job, Option.some.injEq] at hj
      subst hj
      cases outcome with
      | panic => exact .inr (.inr (.inr rfl))
      | _ => exact absurd rfl hy
  | @upsert w prepared outcome applied hw _ =>
    rcases live_toWorker (fun p => by cases p <;> rfl) hl with hl | ⟨hj, hy⟩
    · exact .inl hl
    · simp only [hw, Worker.job, Option.some.injEq] at hj
      subst hj
      cases outcome with
      | panic => exact .inr (.inr (.inr rfl))
      | _ => exact absurd rfl hy
  | prepared hw =>
    refine .inl ((live_toWorker (fun p => by cases p <;> rfl) hl).resolve_right ?_)
    rintro ⟨hj, hy⟩
    exact hy (by simpa [hw, Worker.job] using hj)
  | reject hc _ =>
    refine .inl ((live_toHandler (fun p => by cases p <;> rfl) hl).resolve_right ?_)
    rintro ⟨hj, hx⟩
    exact hx (by simpa [hc, Handler.job] using hj)
  | set hc _ _ | getMiss hc _ | getFind hc _ | getLoad hc | del hc | delFind hc _ | delVector hc _
  | delObject hc _ =>
    refine .inl ((live_toHandler (fun p => by cases p <;> rfl) hl).resolve_right ?_)
    simp [hc, Handler.job]

/-- **How a shadow changes**: it is replaced by a `set`, removed by a `del`, or dropped by a job
with its address. -/
theorem shadow_step {slot : Slot} {v : Arc} (hstep : Step capacity s a s')
    (hv : s.pending slot = some v) :
    s'.pending slot = some v ∨ (∃ c job, a = .set c job ∧ job.slot = slot) ∨
      (∃ c, a = .del c slot) ∨
      ∃ job, a.drops = some job ∧ job.slot = slot ∧ v.addr = job.value.addr := by
  have hdrop : ∀ job : WriteJob newV5, (s.pending.removeIf job.slot job.value).1 slot = some v ∨
      (job.slot = slot ∧ v.addr = job.value.addr) := by
    intro job
    by_cases hholds : s.pending.holds job.slot job.value = true
    · by_cases hslot : slot = job.slot
      · obtain ⟨v', hv', haddr⟩ := PendingWrites.holds_iff.mp hholds
        rw [← hslot, hv, Option.some.injEq] at hv'
        exact .inr ⟨hslot.symm, hv' ▸ haddr⟩
      · exact .inl (by rw [PendingWrites.removeIf_of_ne hslot, hv])
    · exact .inl (by rw [PendingWrites.removeIf_of_not_holds hholds, hv])
  cases hstep with
  | @set c job _ _ _ =>
    by_cases hslot : slot = job.slot
    · exact .inr (.inl ⟨c, job, rfl, hslot.symm⟩)
    · exact .inl (by simp [PendingWrites.insert, Function.update_of_ne hslot, hv])
  | @del c slot' _ =>
    by_cases hslot : slot = slot'
    · exact .inr (.inr (.inl ⟨c, hslot ▸ rfl⟩))
    · exact .inl (by simp [PendingWrites.remove, Function.update_of_ne hslot, hv])
  | @unshadow c job _ => exact (hdrop job).imp_right fun h => .inr (.inr ⟨job, rfl, h.1, h.2⟩)
  | @cleanup w job _ => exact (hdrop job).imp_right fun h => .inr (.inr ⟨job, rfl, h.1, h.2⟩)
  | _ => exact .inl hv

/-! ### One address, one job -/

/-- The addresses of the live allocations tell them apart. -/
structure Tokens (s : State R newV5 W) : Prop where
  /-- Two jobs with one address are in one place. -/
  unique : ∀ p q j k, s.jobAt p = some j → s.jobAt q = some k → j.value.addr = k.value.addr → p = q
  /-- A shadow with the address of a job is the shadow of that job. -/
  shadow : ∀ slot v p j, s.pending slot = some v → s.jobAt p = some j → v.addr = j.value.addr →
    v = j.value ∧ slot = j.slot
  /-- Every job was made in the past. -/
  past : ∀ p j, s.jobAt p = some j → j.value.birth < s.clock

omit [DecidableEq W] in
theorem tokens_init (object : Slot → Option (List UInt8)) (vector : Slot → Option (VectorEntry R)) :
    Tokens (State.init object vector : State R newV5 W) := by
  have hnone : ∀ p, (State.init object vector : State R newV5 W).jobAt p = none := by
    intro p
    cases p <;> rfl
  constructor
  · intro p q j k hp
    simp [hnone] at hp
  · intro slot v p j _ hp
    simp [hnone] at hp
  · intro p j hp
    simp [hnone] at hp

omit [DecidableEq W] in
/-- A new allocation has an address of its own. -/
theorem tokens_set {c : ℕ} {job : WriteJob newV5} (ht : Tokens s) (hfresh : s.Fresh job.value.addr)
    (hbirth : job.value.birth = s.clock) :
    Tokens ({ s with pending := s.pending.insert job.slot job.value
                     clock := s.clock + 1 }.toHandler c (.shadowed job)) := by
  obtain ⟨hpend, hjobs⟩ := hfresh
  constructor
  · intro p q j k hp hq haddr
    rcases jobAt_set hp with ⟨rfl, rfl⟩ | ⟨-, hp'⟩ <;>
      rcases jobAt_set hq with ⟨rfl, rfl⟩ | ⟨-, hq'⟩
    · rfl
    · exact absurd haddr.symm (hjobs q k hq')
    · exact absurd haddr (hjobs p j hp')
    · exact ht.unique p q j k hp' hq' haddr
  · intro slot v p j hv hp haddr
    simp only [State.toHandler_pending, PendingWrites.insert, Function.update_apply] at hv
    split at hv
    · rename_i hslot
      obtain rfl := Option.some.inj hv
      rcases jobAt_set hp with ⟨rfl, rfl⟩ | ⟨-, hp⟩
      · exact ⟨rfl, hslot⟩
      · exact absurd haddr.symm (hjobs p j hp)
    · rcases jobAt_set hp with ⟨rfl, rfl⟩ | ⟨-, hp⟩
      · exact absurd haddr (hpend slot v hv)
      · exact ht.shadow slot v p j hv hp haddr
  · intro p j hp
    show j.value.birth < s.clock + 1
    rcases jobAt_set hp with ⟨rfl, rfl⟩ | ⟨-, hp⟩
    · omega
    · exact (ht.past p j hp).trans (Nat.lt_succ_self _)

omit [DecidableEq W] in
/-- Moving and dropping jobs and shadows leaves them told apart. -/
theorem Tokens.of_moves (ht : Tokens s) (hm : Moves s s') (hclock : s'.clock = s.clock) :
    Tokens s' := by
  obtain ⟨⟨f, hf, hjobs⟩, hpend⟩ := hm
  refine ⟨fun p q j k hp hq haddr => ?_, fun slot v p j hv hp haddr => ?_, fun p j hp => ?_⟩
  · exact hf (ht.unique _ _ j k (hjobs p j hp) (hjobs q k hq) haddr)
  · exact ht.shadow slot v _ j (hpend slot v hv) (hjobs p j hp) haddr
  · exact hclock ▸ ht.past _ j (hjobs p j hp)

theorem tokens_step (ht : Tokens s) (hstep : Step capacity s a s') : Tokens s' := by
  rcases step_jobs hstep with ⟨c, job, -, -, hfresh, hbirth, rfl⟩ | ⟨-, hm, hclock⟩
  · exact tokens_set ht hfresh hbirth
  · exact ht.of_moves hm hclock

/-- **One address, one job**, in every state reached. -/
theorem tokens_run {ok : Guard (State R newV5 W) (Action newV5 W)}
    {h : History (State R newV5 W) (Action newV5 W)} (hrun : DaemonRun capacity ok h s) :
    Tokens s := by
  obtain ⟨object, vector, hrun⟩ := hrun
  exact hrun.invariant_state (tokens_init object vector) fun _ _ _ _ ht _ hstep =>
    tokens_step ht hstep

/-- The job's place is empty now, and nothing else moved. -/
def Vacates (s s' : State R newV5 W) (job : WriteJob newV5) : Prop :=
  ∃ p, s.jobAt p = some job ∧ s'.jobAt p = none ∧ ∀ p', p' ≠ p → s'.jobAt p' = s.jobAt p'

omit [DecidableEq W] in
theorem vacates_toHandler {t : State R newV5 W} {c : ℕ} {x : Handler newV5} {job : WriteJob newV5}
    (hjobs : ∀ p, t.jobAt p = s.jobAt p) (hc : (s.handler c).job = some job) (hx : x.job = none) :
    Vacates s (t.toHandler c x) job := by
  refine ⟨.conn c, hc, by rw [State.jobAt_toHandler_self, hx], fun p hp => ?_⟩
  rw [State.jobAt_toHandler_of_ne _ _ _ hp, hjobs]

theorem vacates_toWorker {t : State R newV5 W} {w : W} {y : Worker R newV5} {job : WriteJob newV5}
    (hjobs : ∀ p, t.jobAt p = s.jobAt p) (hw : (s.worker w).job = some job) (hy : y.job = none) :
    Vacates s (t.toWorker w y) job := by
  refine ⟨.worker w, hw, by rw [State.jobAt_toWorker_self, hy], fun p hp => ?_⟩
  rw [State.jobAt_toWorker_of_ne _ _ _ hp, hjobs]

/-- A job that drops its shadow, or is abandoned, ends. -/
theorem vacates_of_ends {job : WriteJob newV5} (hstep : Step capacity s a s')
    (hends : a.drops = some job ∨ a.abandons = some job) : Vacates s s' job := by
  cases hstep with
  | @unshadow c job' hc =>
    obtain rfl : job' = job := by simpa [Action.drops, Action.abandons] using hends
    exact vacates_toHandler (fun p => by cases p <;> rfl) (by simp [hc, Handler.job]) rfl
  | @cleanup w job' hw =>
    obtain rfl : job' = job := by simpa [Action.drops, Action.abandons] using hends
    exact vacates_toWorker (fun p => by cases p <;> rfl) (by simp [hw, Worker.job]) rfl
  | @unprepared w job' outcome hw hne =>
    obtain ⟨rfl, hy⟩ : job' = job ∧ (Worker.unprepared outcome : Worker R newV5).job = none := by
      cases outcome <;> simp_all [Action.drops, Action.abandons, Worker.unprepared, Worker.job]
    exact vacates_toWorker (fun _ => rfl) (by simp [hw, Worker.job]) hy
  | @put w prepared outcome applied hw _ =>
    obtain ⟨rfl, hy⟩ : prepared.job = job ∧ (Worker.afterPut prepared outcome).job = none := by
      cases outcome <;> simp_all [Action.drops, Action.abandons, Worker.afterPut, Worker.job]
    exact vacates_toWorker (fun p => by cases p <;> rfl) (by simp [hw, Worker.job]) hy
  | @upsert w prepared outcome applied hw _ =>
    obtain ⟨rfl, hy⟩ : prepared.job = job ∧ (Worker.afterUpsert prepared outcome).job = none := by
      cases outcome <;> simp_all [Action.drops, Action.abandons, Worker.afterUpsert, Worker.job]
    exact vacates_toWorker (fun p => by cases p <;> rfl) (by simp [hw, Worker.job]) hy
  | _ => simp [Action.drops, Action.abandons] at hends

/-- A job that ends leaves no live job with its address. -/
theorem addr_ne_of_ends {job : WriteJob newV5} (ht : Tokens s) (hstep : Step capacity s a s')
    (hends : a.drops = some job ∨ a.abandons = some job) {other : WriteJob newV5}
    (hl : s'.Live other) :
    other.value.addr ≠ job.value.addr := by
  obtain ⟨q, hq⟩ := hl
  obtain ⟨p, hp, hnone, hrest⟩ := vacates_of_ends hstep hends
  intro haddr
  by_cases hqp : q = p
  · rw [hqp, hnone] at hq
    cases hq
  · rw [hrest q hqp] at hq
    exact hqp (ht.unique q p other job hq hp haddr)

/-! ### What was set -/

/-- What was set, was set in the past, one at a time; every live job and every shadow was set. -/
structure SetOnce (h : History (State R newV5 W) (Action newV5 W)) (s : State R newV5 W) :
    Prop where
  /-- In the past. -/
  past : ∀ s₀ c job, (s₀, Action.set c job) ∈ h → job.value.birth < s.clock
  /-- One at a time. -/
  once : ∀ s₁ c₁ j s₂ c₂ k, (s₁, Action.set c₁ j) ∈ h → (s₂, Action.set c₂ k) ∈ h →
    j.value.birth = k.value.birth → s₁ = s₂ ∧ j = k
  /-- Every live job. -/
  live : ∀ job, s.Live job → ∃ s₀ c, (s₀, Action.set c job) ∈ h
  /-- Every shadow. -/
  shadow : ∀ slot v, s.pending slot = some v → ∃ s₀ c job, (s₀, Action.set c job) ∈ h ∧
    job.slot = slot ∧ job.value = v

theorem setOnce_run {ok : Guard (State R newV5 W) (Action newV5 W)}
    {h : History (State R newV5 W) (Action newV5 W)} (hrun : DaemonRun capacity ok h s) :
    SetOnce h s := by
  obtain ⟨object, vector, hrun⟩ := hrun
  refine hrun.invariant ⟨by simp, by simp, fun job hl => ?_, fun slot v hv => ?_⟩
    fun h s a s' _ ih _ hstep => ?_
  · obtain ⟨p, hp⟩ := hl
    cases p <;> cases hp
  · cases hv
  rcases step_jobs hstep with ⟨c, job, rfl, -, -, hbirth, rfl⟩ |
    ⟨hset, ⟨⟨f, -, hjobs⟩, hpend⟩, hclock⟩
  · refine ⟨fun s₀ c' j hm => ?_, fun s₁ c₁ j s₂ c₂ k h₁ h₂ heq => ?_, fun j hl => ?_,
      fun slot v hv => ?_⟩
    · show j.value.birth < s.clock + 1
      rcases List.mem_append.mp hm with hm | hm
      · exact (ih.past s₀ c' j hm).trans (Nat.lt_succ_self _)
      · simp only [List.mem_singleton, Prod.mk.injEq, Action.set.injEq] at hm
        rw [hm.2.2, hbirth]
        exact Nat.lt_succ_self _
    · -- an older one was born before this one
      have hold : ∀ s₀ c' j, (s₀, Action.set c' j) ∈ h → j.value.birth ≠ job.value.birth := by
        intro s₀ c' j hm
        exact hbirth ▸ (ih.past s₀ c' j hm).ne
      rcases List.mem_append.mp h₁ with h₁ | h₁ <;> rcases List.mem_append.mp h₂ with h₂ | h₂
      · exact ih.once s₁ c₁ j s₂ c₂ k h₁ h₂ heq
      · simp only [List.mem_singleton, Prod.mk.injEq, Action.set.injEq] at h₂
        exact absurd (h₂.2.2 ▸ heq) (hold _ _ _ h₁)
      · simp only [List.mem_singleton, Prod.mk.injEq, Action.set.injEq] at h₁
        exact absurd (h₁.2.2 ▸ heq.symm) (hold _ _ _ h₂)
      · simp only [List.mem_singleton, Prod.mk.injEq, Action.set.injEq] at h₁ h₂
        exact ⟨h₁.1.trans h₂.1.symm, h₁.2.2.trans h₂.2.2.symm⟩
    · obtain ⟨p, hp⟩ := hl
      rcases jobAt_set hp with ⟨-, rfl⟩ | ⟨-, hp⟩
      · exact ⟨s, c, by simp⟩
      · obtain ⟨s₀, c', hm⟩ := ih.live j ⟨p, hp⟩
        exact ⟨s₀, c', List.mem_append_left _ hm⟩
    · simp only [State.toHandler_pending, PendingWrites.insert, Function.update_apply] at hv
      split at hv
      · exact ⟨s, c, job, by simp, Eq.symm ‹_›, Option.some.inj hv⟩
      · obtain ⟨s₀, c', j, hm, hj⟩ := ih.shadow slot v hv
        exact ⟨s₀, c', j, List.mem_append_left _ hm, hj⟩
  · have hmem : ∀ s₀ c' j, (s₀, Action.set c' j) ∈ h ++ [(s, a)] → (s₀, Action.set c' j) ∈ h := by
      intro s₀ c' j hm
      rcases List.mem_append.mp hm with hm | hm
      · exact hm
      · simp only [List.mem_singleton, Prod.mk.injEq] at hm
        exact absurd hm.2.symm (hset c' j)
    refine ⟨fun s₀ c' j hm => hclock ▸ ih.past s₀ c' j (hmem _ _ _ hm),
      fun s₁ c₁ j s₂ c₂ k h₁ h₂ heq => ?_,
      fun j hl => ?_, fun slot v hv => ?_⟩
    · exact ih.once s₁ c₁ j s₂ c₂ k (hmem _ _ _ h₁) (hmem _ _ _ h₂) heq
    · obtain ⟨p, hp⟩ := hl
      obtain ⟨s₀, c', hm⟩ := ih.live j ⟨f p, hjobs p j hp⟩
      exact ⟨s₀, c', List.mem_append_left _ hm⟩
    · obtain ⟨s₀, c', j, hm, hj⟩ := ih.shadow slot v (hpend slot v hv)
      exact ⟨s₀, c', j, List.mem_append_left _ hm, hj⟩

/-- If every allocation has its time as its address, the next time is the address of none. -/
theorem fresh_clock {ok : Guard (State R newV5 W) (Action newV5 W)}
    {h : History (State R newV5 W) (Action newV5 W)} (hrun : DaemonRun capacity ok h s)
    (haddr : ∀ s₀ c job, (s₀, Action.set c job) ∈ h → job.value.addr = job.value.birth) :
    s.Fresh s.clock := by
  have honce := setOnce_run hrun
  refine ⟨fun slot v hv => ?_, fun p job hp => ?_⟩
  · obtain ⟨s₀, c, job, hm, -, rfl⟩ := honce.shadow slot v hv
    exact (haddr s₀ c job hm ▸ honce.past s₀ c job hm).ne
  · obtain ⟨s₀, c, hm⟩ := honce.live job ⟨p, hp⟩
    exact (haddr s₀ c job hm ▸ honce.past s₀ c job hm).ne

end Semisweet.Daemon
