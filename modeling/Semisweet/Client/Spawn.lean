import Semisweet.Daemon.Instance

/-!
# A client that starts a daemon

`connect_with_spawn` (`src/client/stub.rs`): a client that finds nobody at the socket waits
for the spawn lock, looks again, starts a daemon (`spawn_daemon`, `src/client/spawn.rs`), and
then polls the socket until somebody answers or its deadline has passed. It starts a daemon
once. The daemons are those of `Daemon.Instance`, and take any steps in between.

A daemon that finds the instance lock held stands down, whoever holds it: also a daemon that
has stopped listening and is on its way out. The client that started it then polls for nobody.

## The model

A caller is one call of `connect_with_spawn`. `try_connect` finds somebody when the socket is
there and the process that made it listens. The launcher's fork starts the daemon, which may
take any steps before the launcher is reaped and the client polls. A call may return an error
anywhere, and then gives the spawn lock up.

## What is proved

* `serialized_run` — at most one caller has the spawn lock.
* `polled_daemon` — under which conditions on standing down and exiting a client that polls has a
  daemon to wait for; `polls_for_nobody`, a client that has none.
-/

namespace Semisweet.Client

open Semisweet.Foundations Semisweet.Daemon

/-- Where a call of `connect_with_spawn` is. -/
inductive Caller where
  /-- It is not made yet. -/
  | absent
  /-- Before the first `try_connect`. -/
  | connecting
  /-- It waits for the spawn lock. -/
  | queueing
  /-- It has the spawn lock, and looks again. -/
  | rechecking
  /-- In `spawn_daemon`, before the launcher has forked. -/
  | spawning
  /-- In `spawn_daemon`, after. -/
  | launched
  /-- In the poll loop. -/
  | polling
  /-- It has returned a stream. -/
  | connected
  /-- It has returned an error. -/
  | failed
  deriving DecidableEq

/-- It has the spawn lock. -/
def Caller.Inside : Caller → Prop
  | .rechecking | .spawning | .launched | .polling => True
  | _ => False

/-- It has started a daemon, and waits for it. -/
def Caller.Waiting : Caller → Prop
  | .launched | .polling => True
  | _ => False

/-- It is about to call `try_connect`. -/
def Caller.Trying : Caller → Prop
  | .connecting | .rechecking | .polling => True
  | _ => False

/-- Where it goes when `try_connect` finds nobody. -/
def Caller.missed : Caller → Caller
  | .connecting => .queueing
  | .rechecking => .spawning
  | x => x

/-- The clients, and the daemons. -/
structure Site where
  /-- The daemons. -/
  host : Host
  /-- The clients. -/
  caller : ℕ → Caller
  /-- Who has the spawn lock. -/
  spawnLock : Option ℕ

/-- Nobody is there; the files may be. -/
def Site.init (socket pid : File) : Site := ⟨.init socket pid, fun _ => .absent, none⟩

/-- Caller `c` goes on to `x`. -/
def Site.toCaller (s : Site) (c : ℕ) (x : Caller) : Site :=
  { s with caller := Function.update s.caller c x }

/-- Caller `c` returns with `x`, and gives the spawn lock up if it has it. -/
def Site.returns (s : Site) (c : ℕ) (x : Caller) : Site :=
  { s with spawnLock := if s.spawnLock = some c then none else s.spawnLock }.toCaller c x

/-- `try_connect` finds somebody. -/
def Site.Reachable (s : Site) : Prop :=
  ∃ p, s.host.socket = .made p ∧ (s.host.process p).Listening

/-- What is done. -/
inductive SiteAction where
  /-- A step of a daemon. -/
  | host (a : HostAction)
  /-- `connect_with_spawn` is called. -/
  | call (c : ℕ)
  /-- `try_connect` finds somebody, or not. -/
  | tryConnect (c : ℕ) (found : Bool)
  /-- `spawn_lock.write()`. -/
  | lock (c : ℕ)
  /-- The launcher forks the daemon `p`. -/
  | launch (c p : ℕ)
  /-- The launcher is reaped. -/
  | reap (c : ℕ)
  /-- An error, or the deadline. -/
  | fail (c : ℕ)

/-- One step of a client or of a daemon. -/
inductive SiteStep : Site → SiteAction → Site → Prop
  /-- A daemon. -/
  | host {s : Site} {a : HostAction} {t : Host} :
      HostStep s.host a t → SiteStep s (.host a) { s with host := t }
  /-- A client. -/
  | call {s : Site} {c : ℕ} : s.caller c = .absent → SiteStep s (.call c) (s.toCaller c .connecting)
  /-- `Ok(Some(stream))`. -/
  | found {s : Site} {c : ℕ} :
      (s.caller c).Trying → s.Reachable → SiteStep s (.tryConnect c true) (s.returns c .connected)
  /-- `Ok(None)`. -/
  | missed {s : Site} {c : ℕ} :
      (s.caller c).Trying → ¬ s.Reachable →
        SiteStep s (.tryConnect c false) (s.toCaller c (s.caller c).missed)
  /-- The spawn lock is free. -/
  | lock {s : Site} {c : ℕ} :
      s.caller c = .queueing → s.spawnLock = none →
        SiteStep s (.lock c) ({ s with spawnLock := some c }.toCaller c .rechecking)
  /-- `command.spawn()`, and the launcher's `fork()`. -/
  | launch {s : Site} {c p : ℕ} {t : Host} :
      s.caller c = .spawning → HostStep s.host (.start p) t →
        SiteStep s (.launch c p) ({ s with host := t }.toCaller c .launched)
  /-- `child.wait()`. -/
  | reap {s : Site} {c : ℕ} : s.caller c = .launched → SiteStep s (.reap c) (s.toCaller c .polling)
  /-- `Err`. -/
  | fail {s : Site} {c : ℕ} :
      s.caller c ≠ .absent → s.caller c ≠ .connected →
        SiteStep s (.fail c) (s.returns c .failed)

/-- The runs of clients and daemons, under a condition on their steps. -/
def SiteRun (ok : Guard Site SiteAction) (h : History Site SiteAction) (s : Site) : Prop :=
  ∃ socket pid, Run SiteStep (Site.init socket pid) ok h s

/-- What is done to the daemons. -/
def SiteAction.host? : SiteAction → Option HostAction
  | .host a => some a
  | .launch _ p => some (.start p)
  | _ => none

variable {s s' : Site} {a : SiteAction} {h : History Site SiteAction} {ok : Guard Site SiteAction}

/-- Without the clients, a run is a run of the daemons. -/
theorem host_run (hrun : SiteRun ok h s) :
    HostRun Always (h.project Site.host SiteAction.host?) s.host := by
  obtain ⟨socket, pid, hrun⟩ := hrun
  refine ⟨socket, pid, hrun.project (f := Site.host) (g := SiteAction.host?)
    (fun h s a s' b _ _ hstep hb => ⟨trivial, ?_⟩) fun s a s' hstep ha => ?_⟩
  · cases hstep with
    | host hd | launch _ hd =>
      obtain rfl := Option.some.inj hb
      exact hd
    | _ => cases hb
  · cases hstep with
    | host _ | launch _ _ => cases ha
    | _ => rfl

/-! ### The spawn lock -/

/-- Every caller past the spawn lock has it. -/
def Serialized (s : Site) : Prop := Guards s.spawnLock Caller.Inside s.caller

theorem serialized_return {c : ℕ} {x : Caller} (hI : Serialized s) (hx : ¬ x.Inside) :
    Serialized (s.returns c x) := by
  by_cases hheld : s.spawnLock = some c
  · rw [Serialized, hheld] at hI
    simp only [Serialized, Site.returns, Site.toCaller, hheld, if_pos]
    exact hI.release hx
  · simp only [Serialized, Site.returns, Site.toCaller, hheld, if_false]
    exact hI.move fun hin => absurd hin hx

theorem serialized_step (hI : Serialized s) (hstep : SiteStep s a s') : Serialized s' := by
  cases hstep with
  | host _ => exact hI
  | call _ => exact hI.move False.elim
  | found _ _ => exact serialized_return hI id
  | fail _ _ => exact serialized_return hI id
  | @missed c hc _ =>
    refine hI.move fun hin => hI c ?_
    generalize s.caller c = x at hc hin ⊢
    cases x <;> first | exact hc.elim | exact hin.elim | trivial
  | lock _ hfree =>
    rw [Serialized, hfree] at hI
    exact hI.acquire
  | @launch c _ _ hc _ | @reap c hc => exact hI.move fun _ => hI c (by rw [hc]; trivial)

/-- **Spawning is serialized**: at most one caller is past the spawn lock. -/
theorem serialized_run (hrun : SiteRun ok h s) {c c' : ℕ} (hc : (s.caller c).Inside)
    (hc' : (s.caller c').Inside) : c = c' := by
  obtain ⟨socket, pid, hrun⟩ := hrun
  have hinit : Serialized (Site.init socket pid) := fun _ hx => False.elim hx
  have hI : Serialized s :=
    hrun.invariant_state hinit fun _ _ _ _ hI _ hstep => serialized_step hI hstep
  exact hI.unique hc hc'

/-! ### Somebody to wait for -/

/-- It has the instance lock, and has not begun to exit. -/
def Staying : Process → Prop
  | .locked | .stale | .clean | .ready | .serving => True
  | _ => False

/-- It has the instance lock, and has begun to exit. -/
def Exiting : Process → Prop
  | .draining | .stopped | .unlinked | .unpidded => True
  | _ => False

/-- The process is one to wait for: it has the instance lock and has not begun to exit, or it has
not tried the lock yet. -/
def Promising (x : Process) : Prop := Staying x ∨ x = .starting

/-- A client has started a daemon, and waits for it. -/
def Site.Awaited (s : Site) : Prop := ∃ c, (s.caller c).Waiting

/-- With this, a daemon begins to exit. -/
def BeginsExit (s : Host) : HostAction → Prop
  | .leave _ | .bindFailed _ => True
  | .fail p => Staying (s.process p)
  | _ => False

/-- No daemon is killed. -/
def NoCrash : Guard Site SiteAction := fun _ _ a => ∀ p, a ≠ .host (.kill p)

/-- While a client waits, no daemon finds the instance lock held by one that has begun to exit, and
none fails to open it. -/
def StandsDownInTime : Guard Site SiteAction := fun _ s a =>
  s.Awaited → ∀ p, a ≠ .host (.openFailed p) ∧
    (a = .host (.standDown p) → ∀ q, s.host.lock = some q → ¬ Exiting (s.host.process q))

/-- While a client waits, no daemon begins to exit. -/
def ExitsInTime : Guard Site SiteAction := fun _ s a =>
  s.Awaited → ∀ b, a = .host b → ¬ BeginsExit s.host b

theorem Staying.holding {x : Process} (hx : Staying x) : x.Holding := by
  cases x <;> first | exact hx.elim | trivial

theorem staying_of_holding {x : Process} (hx : x.Holding) (hexit : ¬ Exiting x) : Staying x := by
  cases x <;> first | exact hx.elim | trivial

/-- **What a daemon's step does to one to wait for**: it stays one, unless it stands down, begins to
exit or is killed. -/
theorem promising_step {s t : Host} {a : HostAction} {p : ℕ} (hstep : HostStep s a t)
    (hp : Promising (s.process p)) :
    Promising (t.process p) ∨ (a = .standDown p ∨ a = .openFailed p) ∨
      (a = .leave p ∨ a = .bindFailed p ∨ a = .fail p) ∨ a = .kill p := by
  have hmove : ∀ {q : ℕ} {x : Process} {Q : Prop}, t.process = Function.update s.process q x →
      (q = p → Promising x ∨ Q) → Promising (t.process p) ∨ Q := by
    intro q x Q ht hx
    rw [ht]
    by_cases hq : p = q
    · subst hq
      simpa using hx rfl
    · rw [Function.update_of_ne hq]
      exact .inl hp
  have hnot : ∀ {q : ℕ} {x : Process}, s.process q = x → ¬ Promising x → q ≠ p :=
    fun hq hx hqp => hx (hq ▸ hqp ▸ hp)
  cases hstep with
  | start _ => exact hmove rfl fun _ => .inl (.inr rfl)
  | openFailed _ => exact hmove rfl fun hq => .inr (.inl (.inr (by rw [hq])))
  | lock _ _ => exact hmove rfl fun _ => .inl (.inl trivial)
  | standDown _ _ => exact hmove rfl fun hq => .inr (.inl (.inl (by rw [hq])))
  | probe _ =>
    refine hmove rfl fun _ => .inl (.inl ?_)
    split <;> trivial
  | remove _ _ | writePid _ | bind _ _ => exact hmove rfl fun _ => .inl (.inl trivial)
  | bindFailed _ => exact hmove rfl fun hq => .inr (.inr (.inl (.inr (.inl (by rw [hq])))))
  | leave _ => exact hmove rfl fun hq => .inr (.inr (.inl (.inl (by rw [hq]))))
  | fail _ => exact hmove rfl fun hq => .inr (.inr (.inl (.inr (.inr (by rw [hq])))))
  | kill _ => exact hmove rfl fun hq => .inr (.inr (.inr (by rw [hq])))
  | stop hq | unlink hq | unlinkPid hq | release hq =>
    exact hmove rfl fun hqp => absurd hqp (hnot hq (by rintro (hx | hx) <;> cases hx))

/-- A daemon that stands down has found one to wait for, if the one with the lock has not begun to
exit. -/
theorem exists_staying_of_standDown {h : History Site SiteAction} {s : Site} {p : ℕ} {t : Host}
    (hH : Held s.host.lock Process.Holding s.host.process)
    (hok : StandsDownInTime h s (.host (.standDown p))) (hwait : s.Awaited)
    (hstep : HostStep s.host (.standDown p) t) : ∃ q, Staying (s.host.process q) := by
  cases hstep with
  | standDown _ hheld =>
    obtain ⟨q, hq⟩ := Option.ne_none_iff_exists'.mp hheld
    exact ⟨q, staying_of_holding (hH q hq) ((hok hwait p).2 rfl q hq)⟩

/-- A step that is not of these leaves one to wait for. -/
theorem exists_promising_step {h : History Site SiteAction} {s : Site} {a : HostAction} {t : Host}
    (hH : Held s.host.lock Process.Holding s.host.process)
    (hok : NoCrash h s (.host a) ∧ StandsDownInTime h s (.host a) ∧ ExitsInTime h s (.host a))
    (hstep : HostStep s.host a t) (hwait : s.Awaited) (hp : ∃ p, Promising (s.host.process p)) :
    ∃ p, Promising (t.process p) := by
  obtain ⟨hcrash, hstand, hexit⟩ := hok
  obtain ⟨p, hp⟩ := hp
  rcases promising_step hstep hp with hp | (rfl | rfl) | (rfl | rfl | rfl) | rfl
  · exact ⟨p, hp⟩
  · -- the one with the lock is one to wait for, and it is not the one that stands down
    obtain ⟨q, hq⟩ := exists_staying_of_standDown hH hstand hwait hstep
    have hpq : p ≠ q := by
      rintro rfl
      cases hstep with
      | standDown hx _ =>
        rw [hx] at hq
        exact hq
    exact ⟨q, (promising_step hstep (.inl hq)).resolve_right (by simp [hpq])⟩
  · exact absurd rfl (hstand hwait p).1
  · exact absurd trivial (hexit hwait _ rfl)
  · exact absurd trivial (hexit hwait _ rfl)
  · -- a daemon that fails has the lock
    have hstay : Staying (s.host.process p) := by
      rcases hp with hp | hp
      · exact hp
      · cases hstep with
        | fail hhold =>
          rw [hp] at hhold
          exact hhold.elim
    exact absurd hstay (hexit hwait _ rfl)
  · exact absurd rfl (hcrash p)

/-- A client begins to wait when its daemon is started. -/
theorem awaited_step (hstep : SiteStep s a s') (hwait : s'.Awaited) :
    s.Awaited ∨ ∃ c p, a = .launch c p := by
  have hmove : ∀ {c : ℕ} {x : Caller}, s'.caller = Function.update s.caller c x →
      (x.Waiting → (s.caller c).Waiting) → s.Awaited := by
    intro c x hs' hx
    obtain ⟨c', hc'⟩ := hwait
    rw [hs'] at hc'
    by_cases hcc : c' = c
    · subst hcc
      rw [Function.update_self] at hc'
      exact ⟨c', hx hc'⟩
    · rw [Function.update_of_ne hcc] at hc'
      exact ⟨c', hc'⟩
  cases hstep with
  | host _ => exact .inl hwait
  | call _ | found _ _ | lock _ _ | fail _ _ => exact .inl (hmove rfl False.elim)
  | @missed c hc _ =>
    refine .inl (hmove rfl fun hx => ?_)
    generalize s.caller c = x at hc hx ⊢
    cases x <;> first | exact hc.elim | exact hx
  | launch _ _ => exact .inr ⟨_, _, rfl⟩
  | reap hc => exact .inl (hmove rfl fun _ => by rw [hc]; trivial)

/-- **A client that polls has somebody to wait for**, in every run in which no daemon is killed, and
in which, while a client waits, no daemon begins to exit, and none finds the instance lock held by
one that has. -/
theorem polled_daemon
    (hrun : SiteRun (fun h s a => NoCrash h s a ∧ StandsDownInTime h s a ∧ ExitsInTime h s a) h s)
    {c : ℕ} (hc : s.caller c = .polling) :
    ∃ p, (s.host.lock = some p ∧ Staying (s.host.process p)) ∨ s.host.process p = .starting := by
  have hE := exclusive_run (host_run hrun)
  obtain ⟨socket, pid, hrun⟩ := hrun
  have hwait : s.Awaited := ⟨c, by rw [hc]; trivial⟩
  have hsome : ∃ p, Promising (s.host.process p) := by
    revert hwait
    refine hrun.invariant (I := fun _ s => s.Awaited → ∃ p, Promising (s.host.process p))
      (fun ⟨c, hc⟩ => False.elim hc) fun h s a s' hbefore hI hok hstep hwait => ?_
    have hH : Held s.host.lock Process.Holding s.host.process := held_run (host_run ⟨_, _, hbefore⟩)
    rcases awaited_step hstep hwait with hwaited | ⟨c, p, rfl⟩
    · -- a client was waiting, so there was somebody to wait for
      cases hstep with
      | host hd => exact exists_promising_step hH hok hd hwaited (hI hwaited)
      | @launch _ p' _ _ hd =>
        obtain ⟨p, hp⟩ := hI hwaited
        exact ⟨p, (promising_step hd hp).resolve_right (by simp)⟩
      | _ => exact hI hwaited
    · -- the daemon that was just started
      cases hstep with
      | launch _ hd =>
        cases hd with
        | start _ => exact ⟨p, .inr (by simp [Site.toCaller, Host.toProcess])⟩
  obtain ⟨p, hp | hp⟩ := hsome
  · exact ⟨p, .inl ⟨hE p hp.holding, hp⟩⟩
  · exact ⟨p, .inr hp⟩

namespace Sample

/-- The conditions of `polled_daemon`. -/
abbrev InTime : Guard Site SiteAction := fun h s a =>
  NoCrash h s a ∧ StandsDownInTime h s a ∧ ExitsInTime h s a

/-- A daemon gives up with this, or is killed. -/
def departs : SiteAction → Bool
  | .host a =>
    match a with
    | .standDown _ | .openFailed _ | .leave _ | .bindFailed _ | .fail _ | .kill _ => true
    | _ => false
  | _ => false

theorem inTime {h : History Site SiteAction} {s : Site} {a : SiteAction} (ha : departs a = false) :
    InTime h s a := by
  refine ⟨?_, ?_, ?_⟩
  · rintro p rfl
    cases ha
  · rintro - p
    constructor <;> rintro rfl <;> cases ha
  · rintro - b rfl
    cases b <;> first | exact id | cases ha

/-- A client has started a daemon, which serves, and polls for it. -/
def started : Site where
  host := ⟨Function.update (fun _ => .absent) 0 .serving, some 0, .made 0, .made 0⟩
  caller := Function.update (fun _ => .absent) 0 .polling
  spawnLock := some 0

theorem started_run : ∃ h, SiteRun InTime h started := by
  have hnobody : ∀ t : Site, t.host.socket = .missing → ¬ t.Reachable := by
    rintro t ht ⟨p, hp, -⟩
    rw [ht] at hp
    cases hp
  have h₀ : Run SiteStep (Site.init .missing .missing) InTime [] _ := .start
  have h₁ := h₀.next (inTime rfl) (.call (c := 0) rfl)
  have h₂ := h₁.next (inTime rfl) (.missed (c := 0) trivial (hnobody _ rfl))
  have h₃ := h₂.next (inTime rfl) (.lock (c := 0) rfl rfl)
  have h₄ := h₃.next (inTime rfl) (.missed (c := 0) trivial (hnobody _ rfl))
  have h₅ := h₄.next (inTime rfl) (.launch (c := 0) rfl (.start (p := 0) rfl))
  have h₆ := h₅.next (inTime rfl) (.reap (c := 0) rfl)
  have h₇ := h₆.next (inTime rfl) (.host (.lock (p := 0) rfl rfl))
  have h₈ := h₇.next (inTime rfl) (.host (.probe (p := 0) rfl))
  have h₉ := h₈.next (inTime rfl) (.host (.writePid (p := 0) rfl))
  have h₁₀ := h₉.next (inTime rfl) (.host (.bind (p := 0) rfl rfl))
  obtain ⟨h, s, hrun, rfl⟩ : ∃ h s, Run SiteStep (Site.init .missing .missing) InTime h s ∧
      s = started :=
    ⟨_, _, h₁₀, by
      simp [started, Site.init, Host.init, Site.toCaller, Host.toProcess, Caller.missed]⟩
  exact ⟨h, _, _, hrun⟩

/-- Another daemon has started. -/
def crowded : Site := { started with host := started.host.toProcess 1 .starting }

/-- It may stand down: the one that serves has not begun to exit. -/
theorem inTime_standDown (h : History Site SiteAction) :
    InTime h crowded (.host (.standDown 1)) := by
  have hserves : ∀ q, crowded.host.lock = some q → ¬ Exiting (crowded.host.process q) := by
    intro q hq
    obtain rfl := Option.some.inj hq
    exact id
  refine ⟨fun p => ?_, fun _ p => ⟨?_, fun _ => hserves⟩, ?_⟩
  · simp
  · simp
  · rintro - b hb
    obtain rfl := SiteAction.host.inj hb
    exact id

end Sample

/-- A client polls, and its daemon serves; another daemon has stood down before it. -/
theorem polled_daemon_started : ∃ (h : History Site SiteAction) (s : Site),
    SiteRun Sample.InTime h s ∧ s.caller 0 = .polling ∧ s.host.process 1 = .exited ∧
      ∃ p, (s.host.lock = some p ∧ Staying (s.host.process p)) ∨ s.host.process p = .starting := by
  obtain ⟨h, socket, pid, hrun⟩ := Sample.started_run
  have h₁ := hrun.next (Sample.inTime rfl) (.host (.start (p := 1) rfl))
  have h₂ := h₁.next (Sample.inTime_standDown _) (.host (.standDown (p := 1) rfl (by decide)))
  exact ⟨_, _, ⟨socket, pid, h₂⟩, rfl, rfl, polled_daemon ⟨socket, pid, h₂⟩ (c := 0) rfl⟩

/-- **A client may poll for nobody**: its daemon stands down before one that has stopped
listening, and has not released the lock yet. -/
theorem polls_for_nobody :
    ¬ ∀ (h : History Site SiteAction) (s : Site) (c : ℕ),
      SiteRun NoCrash h s → s.caller c = .polling →
        ∃ p, (s.host.lock = some p ∧ Staying (s.host.process p)) ∨
          s.host.process p = .starting := by
  intro hall
  obtain ⟨h, socket, pid, hrun⟩ := Sample.started_run
  have hrun : Run SiteStep _ NoCrash h Sample.started := hrun.mono fun _ _ _ _ _ hok _ => hok.1
  -- the first client is served, and its daemon leaves
  have h₁ := hrun.next (by simp [NoCrash]) (.found (c := 0) trivial ⟨0, rfl, trivial⟩)
  have h₂ := h₁.next (by simp [NoCrash]) (.host (.leave (p := 0) rfl))
  have h₃ := h₂.next (by simp [NoCrash]) (.host (.stop (p := 0) rfl))
  -- a second one finds nobody, and starts a daemon
  have hnobody : ∀ t : Site, t.host.socket = .made 0 → t.host.process 0 = .stopped →
      ¬ t.Reachable := by
    rintro t ht hp ⟨p, hmade, hl⟩
    obtain rfl : 0 = p := by simpa [ht] using hmade
    rw [hp] at hl
    exact hl
  have h₄ := h₃.next (by simp [NoCrash]) (.call (c := 1) rfl)
  have h₅ := h₄.next (by simp [NoCrash]) (.missed (c := 1) trivial (hnobody _ rfl rfl))
  have h₆ := h₅.next (by simp [NoCrash]) (.lock (c := 1) rfl rfl)
  have h₇ := h₆.next (by simp [NoCrash]) (.missed (c := 1) trivial (hnobody _ rfl rfl))
  have h₈ := h₇.next (by simp [NoCrash]) (.launch (c := 1) rfl (.start (p := 1) rfl))
  have h₉ := h₈.next (by simp [NoCrash]) (.reap (c := 1) rfl)
  -- which stands down
  have h₁₀ := h₉.next (by simp [NoCrash]) (.host (.standDown (p := 1) rfl (by decide)))
  obtain ⟨p, ⟨hlock, hstay⟩ | hstart⟩ := hall _ _ 1 ⟨_, _, h₁₀⟩ rfl
  · obtain rfl : 0 = p := Option.some.inj hlock
    exact hstay
  · by_cases hp : p = 0 ∨ p = 1
    · rcases hp with rfl | rfl <;> cases hstart
    · rw [not_or] at hp
      simp [Site.toCaller, Site.returns, Host.toProcess, Sample.started, hp.1, hp.2] at hstart

end Semisweet.Client
