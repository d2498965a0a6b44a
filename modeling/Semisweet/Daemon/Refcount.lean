import Semisweet.Daemon.Supervisor

/-!
# The connection count

A connection is counted once it has its `ConnectionGuard`, through an event sent when the
guard is made, and uncounted through one sent when it is dropped. The events are taken one
at a time, some time later, so the count lags behind; what it lags by is in the channel.

The idle branch goes by the count. A client is sent its `Welcome` before its guard is made,
so between the two, and as long as its event is in the channel, it is served and not counted.

## What is proved

* `step_counts` — what a step does to the count, the channel and the guards.
* `refcount_run` — the count and what is in the channel add up to the guards, and the channel
  never takes the count below zero.
* `unserved_run` — what has not completed a `Hello` of the daemon's protocol changes nothing.
* `refcount` — all of this, of every run.
* `idle_cuts_none_iff` — when the idle branch leaves no client behind, and `idle_cuts_client`, a
  client that it does leave behind.
-/

namespace Semisweet.Daemon

open Semisweet.Core Semisweet.Foundations Semisweet.Protocol

variable {R : Type} [Field R] {newV5 : Uuid → List UInt8 → Uuid} {W : Type} [DecidableEq W]
  {config : Config} {capacity : ℕ} {s s' : Server R newV5 W} {a : ServerAction newV5 W}
  {h : History (Server R newV5 W) (ServerAction newV5 W)}
  {ok : Guard (Server R newV5 W) (ServerAction newV5 W)}

/-! ### The count and the guards -/

/-- A task that moves within its guard, or without one, leaves the guards as they are. -/
theorem guarded_update {conn : ℕ → Conn} {c : ℕ} {x y : Conn} (hc : conn c = y)
    (hx : x.Guarded ↔ y.Guarded) (c' : ℕ) :
    (Function.update conn c x c').Guarded ↔ (conn c').Guarded := by
  by_cases hc' : c' = c
  · subst hc'
    rw [Function.update_self, hx, hc]
  · rw [Function.update_of_ne hc']

/-- **What a step does to the count**: nothing; it makes a guard, drops one, or takes an
event. -/
theorem step_counts (hstep : ServerStep config capacity s a s') :
    (s'.clients = s.clients ∧ s'.events = s.events ∧
      ∀ c, (s'.conn c).Guarded ↔ (s.conn c).Guarded) ∨
    (∃ c, s.conn c = .welcomed ∧ s' = (s.send .connected).toConn c .waiting) ∨
    (∃ c, (s.conn c).Guarded ∧ s' = (s.send .disconnected).toConn c .closed) ∨
    ∃ e rest b, s.phase = .selecting b ∧ s.events = e :: rest ∧ s' = s.take rest e := by
  have hclose : ∀ c, s' = s.close c → (s'.clients = s.clients ∧ s'.events = s.events ∧
      ∀ c, (s'.conn c).Guarded ↔ (s.conn c).Guarded) ∨
        ∃ c, (s.conn c).Guarded ∧ s' = (s.send .disconnected).toConn c .closed := by
    rintro c rfl
    by_cases hc : (s.conn c).Guarded
    · exact .inr ⟨c, hc, by simp [Server.close, hc]⟩
    · refine .inl ⟨by simp, by simp [Server.close, hc], ?_⟩
      rw [Server.close, if_neg hc]
      exact guarded_update rfl (iff_of_false id hc)
  cases hstep with
  | enter hc => exact .inr (.inl ⟨_, hc, rfl⟩)
  | leave hc => exact (hclose _ rfl).imp id fun hd => .inr (.inl hd)
  | panic _ _ => exact (hclose _ rfl).imp id fun hd => .inr (.inl hd)
  | event hp he => exact .inr (.inr (.inr ⟨_, _, _, hp, he, rfl⟩))
  | accept _ hc => exact .inl ⟨rfl, rfl, guarded_update hc (iff_of_false id id)⟩
  | greet hc =>
    exact .inl ⟨rfl, rfl, guarded_update hc (iff_of_false (Conn.not_guarded_greeted config) id)⟩
  | receive hc =>
    exact .inl ⟨rfl, rfl, guarded_update hc (iff_of_true (Conn.guarded_received config _) trivial)⟩
  | conclude hc _ _ _ _ _ | register hc | refuse hc _ _ =>
    exact .inl ⟨rfl, rfl, guarded_update hc (iff_of_true trivial trivial)⟩
  | reply hc =>
    exact .inl ⟨rfl, rfl, guarded_update hc (iff_of_true (Conn.guarded_replied _ _) trivial)⟩
  | _ => exact .inl ⟨rfl, rfl, fun _ => Iff.rfl⟩

/-- Once `run` has returned, it has returned. -/
theorem returned_step (hstep : ServerStep config capacity s a s') (hr : s.phase = .returned) :
    s'.phase = .returned := by
  rcases phase_step hstep with ⟨hp, -⟩ | hsup
  · exact hp.trans hr
  · generalize s'.phase = p at hsup ⊢
    generalize s'.clients = clients at hsup
    cases hsup <;> simp_all

/-- The count and the channel add up to the guards, and no part of the channel takes the count
below zero. -/
structure Refcount (s : Server R newV5 W) : Prop where
  /-- There are finitely many guards. -/
  finite : {c | (s.conn c).Guarded}.Finite
  /-- They add up. -/
  sum : s.phase ≠ .returned → s.clients.active + s.events.count .connected =
    s.events.count .disconnected + population Conn.Guarded s.conn
  /-- Not below zero. -/
  covered : s.phase ≠ .returned → ∀ taken, taken <+: s.events →
    taken.count .disconnected ≤ s.clients.active + taken.count .connected

theorem refcount_step (hI : Refcount s) (hstep : ServerStep config capacity s a s') :
    Refcount s' := by
  have hrun : s'.phase ≠ .returned → s.phase ≠ .returned :=
    fun hr' hr => hr' (returned_step hstep hr)
  rcases step_counts hstep with ⟨hclients, hevents, hguards⟩ | ⟨c, hc, rfl⟩ | ⟨c, hc, rfl⟩ |
    ⟨e, rest, b, hp, he, rfl⟩
  · have hset : {c | (s'.conn c).Guarded} = {c | (s.conn c).Guarded} := Set.ext hguards
    refine ⟨hset ▸ hI.finite, fun hr => ?_, fun hr => ?_⟩
    · rw [hclients, hevents, population, hset]
      exact hI.sum (hrun hr)
    · rw [hclients, hevents]
      exact hI.covered (hrun hr)
  · -- a guard is made, and one more event is in the channel
    have hnot : ¬ (s.conn c).Guarded := by rw [hc]; exact id
    refine ⟨by simpa using population_finite hI.finite, fun hr => ?_, fun hr taken htaken => ?_⟩
    all_goals
      simp only [Server.toConn_phase, Server.send_phase] at hr
      simp only [Server.toConn_events, Server.send_events _ _ hr, Server.toConn_clients,
        Server.send_clients, Server.toConn_conn, Server.send_conn] at *
    · have hsum := hI.sum hr
      rw [population_enter (x := Conn.waiting) hI.finite hnot trivial, List.count_append,
        List.count_append]
      simp
      omega
    · rcases List.prefix_concat_iff.mp htaken with rfl | htaken
      · have hcov := hI.covered hr s.events List.prefix_rfl
        rw [List.count_append, List.count_append]
        simp
        omega
      · exact hI.covered hr taken htaken
  · -- a guard is dropped: it is one of those the channel adds up to
    refine ⟨by simpa using population_finite hI.finite, fun hr => ?_, fun hr taken htaken => ?_⟩
    all_goals
      simp only [Server.toConn_phase, Server.send_phase] at hr
      simp only [Server.toConn_events, Server.send_events _ _ hr, Server.toConn_clients,
        Server.send_clients, Server.toConn_conn, Server.send_conn] at *
      have hsum := hI.sum hr
      have hpop := population_leave (x := Conn.closed) hI.finite hc id
    · rw [List.count_append, List.count_append]
      simp
      omega
    · rcases List.prefix_concat_iff.mp htaken with rfl | htaken
      · rw [List.count_append, List.count_append]
        simp
        omega
      · exact hI.covered hr taken htaken
  · -- an event is taken: the rest of the channel was covered with it
    have hr : s.phase ≠ .returned := by simp [hp]
    have hsum := hI.sum hr
    have hcov : ∀ taken, taken <+: rest → (e :: taken).count ClientEvent.disconnected ≤
        s.clients.active + (e :: taken).count ClientEvent.connected := fun taken htaken =>
      hI.covered hr (e :: taken) (he ▸ (List.prefix_cons_inj e).mpr htaken)
    have hone := hcov [] List.nil_prefix
    refine ⟨by simpa using hI.finite, fun _ => ?_, fun _ taken htaken => ?_⟩
    · rw [he] at hsum
      cases e <;> simp [Server.take, Clients.connected, Clients.disconnected] at * <;> omega
    · have hcov := hcov taken (by simpa using htaken)
      cases e <;> simp [Server.take, Clients.connected, Clients.disconnected] at * <;> omega

/-- **The count is exact**, in every run. -/
theorem refcount_run (hrun : ServerRun config capacity ok h s) : Refcount s := by
  obtain ⟨object, vector, hrun⟩ := hrun
  refine hrun.invariant_state ⟨?_, fun _ => ?_, fun _ taken htaken => ?_⟩
    fun _ _ _ _ hI _ hstep => refcount_step hI hstep
  · exact Set.finite_empty.subset fun c hc => hc
  · have hpop : population Conn.Guarded (Server.init object vector : Server R newV5 W).conn = 0 :=
      (population_eq_zero_iff (Set.finite_empty.subset fun c hc => hc)).mpr fun c => id
    rw [hpop]
    rfl
  · obtain rfl := List.prefix_nil.mp htaken
    exact Nat.zero_le _

/-! ### Before the handshake is done -/

/-- The connection completed a `Hello` of the daemon's protocol. -/
def Completed (config : Config) (h : History (Server R newV5 W) (ServerAction newV5 W)) (c : ℕ) :
    Prop :=
  ∃ s₀ client pid,
    (s₀, ServerAction.greet c (.frame (some (.hello client config.protocol pid))) true) ∈ h

/-- The connection whose task is started, or takes the step. -/
def ServerAction.conn : ServerAction newV5 W → Option ℕ
  | .accept c | .greet c _ _ | .enter c | .receive c _ | .handle c _ | .refuse c _ | .register c _
  | .reply c _ | .leave c | .panic c => some c
  | _ => none

/-- A step that serves a connection is its own, and comes after its `Welcome`. -/
theorem served_step (hstep : ServerStep config capacity s a s') {c : ℕ} (hc : (s'.conn c).Served) :
    (s.conn c).Served ∨
      ∃ client pid, a = .greet c (.frame (some (.hello client config.protocol pid))) true := by
  have hmove : ∀ {c' x y}, s'.conn = Function.update s.conn c' x → s.conn c' = y →
      (x.Served → y.Served) → (s.conn c).Served := by
    intro c' x y hs' hy hxy
    rw [hs'] at hc
    by_cases hcc : c = c'
    · subst hcc
      rw [Function.update_self] at hc
      exact hy ▸ hxy hc
    · rwa [Function.update_of_ne hcc] at hc
  cases hstep with
  | greet hg =>
    rename_i c' frame sent
    by_cases hcc : c = c'
    · subst hcc
      rw [Server.toConn_conn, Function.update_self] at hc
      rcases hc with hw | hno
      · obtain ⟨rfl, client, pid, rfl⟩ := Conn.greeted_eq_welcomed config hw
        exact .inr ⟨client, pid, rfl⟩
      · exact absurd hno (Conn.not_guarded_greeted config)
    · rw [Server.toConn_conn, Function.update_of_ne hcc] at hc
      exact .inl hc
  | accept _ hg => exact .inl (hmove rfl hg (by simp [Conn.Served, Conn.Guarded]))
  | enter hg =>
    have hs' := Server.toConn_conn (s.send .connected)
    rw [Server.send_conn] at hs'
    exact .inl (hmove (hs' _ .waiting) hg fun _ => .inl rfl)
  | receive hg => exact .inl (hmove rfl hg fun _ => .inr trivial)
  | conclude hg _ _ _ _ _ => exact .inl (hmove rfl hg fun _ => .inr trivial)
  | refuse hg _ _ => exact .inl (hmove rfl hg fun _ => .inr trivial)
  | register hg => exact .inl (hmove rfl hg fun _ => .inr trivial)
  | reply hg => exact .inl (hmove rfl hg fun _ => .inr trivial)
  | leave _ | panic _ _ =>
    have hgone : ¬ Conn.closed.Served := by simp [Conn.Served, Conn.Guarded]
    exact .inl (hmove (Server.close_conn s _) rfl fun hs => absurd hs hgone)
  | event _ _ => exact .inl (by simpa using hc)
  | _ => exact .inl hc

/-- Every served connection completed a `Hello`. -/
theorem served_run (hrun : ServerRun config capacity ok h s) {c : ℕ} (hc : (s.conn c).Served) :
    Completed config h c := by
  obtain ⟨object, vector, hrun⟩ := hrun
  revert c
  refine hrun.invariant (I := fun h s => ∀ {c}, (s.conn c).Served → Completed config h c)
    (fun hc => ?_) fun h s a s' _ hI _ hstep c hc => ?_
  · rcases hc with hc | hc
    · cases hc
    · exact hc.elim
  · rcases served_step hstep hc with hc | ⟨client, pid, rfl⟩
    · obtain ⟨s₀, client, pid, hm⟩ := hI hc
      exact ⟨s₀, client, pid, List.mem_append_left _ hm⟩
    · exact ⟨s, client, pid, by simp⟩

/-- **What has not completed a `Hello` changes nothing**: no step of its task touches the count,
the channel, the namespaces, or the queue and what is behind it. -/
theorem unserved_run (hrun : ServerRun config capacity ok h s)
    (hstep : ServerStep config capacity s a s') {c : ℕ} (ha : a.conn = some c)
    (hno : ¬ Completed config h c) :
    s'.clients = s.clients ∧ s'.events = s.events ∧ s'.registry = s.registry ∧
      s'.queue = s.queue := by
  have hun : ∀ {x}, s.conn c = x → ¬ x.Served := fun hx hs => hno (served_run hrun (hx ▸ hs))
  cases hstep with
  | accept _ _ | greet _ => exact ⟨rfl, rfl, rfl, rfl⟩
  | panic _ _ =>
    obtain rfl := Option.some.inj ha
    have hg : ¬ (s.conn _).Guarded := fun hg => hun rfl (.inr hg)
    exact ⟨by simp, by simp [Server.close, hg], by simp, by simp⟩
  | enter hg =>
    obtain rfl := Option.some.inj ha
    exact absurd (.inl rfl) (hun hg)
  | receive hg | reply hg | leave hg | register hg | refuse hg _ _ | handle hg _ _ _ _
  | conclude hg _ _ _ _ _ =>
    obtain rfl := Option.some.inj ha
    exact absurd (.inr trivial) (hun hg)
  | _ => cases ha

/-- **The count is exact**: while `run` runs, the count and the events in the channel add up to
the live guards; a `Disconnected` finds the count above zero; and a connection that has not
completed a `Hello` of the daemon's protocol changes neither the count nor a namespace, a
buffer, the queue or a store. -/
theorem refcount (hrun : ServerRun config capacity ok h s) :
    (s.phase ≠ .returned → s.clients.active + s.events.count .connected =
      s.events.count .disconnected + population Conn.Guarded s.conn) ∧
    (∀ rest, s.phase ≠ .returned → s.events = .disconnected :: rest → 0 < s.clients.active) ∧
    ∀ a s' c, ServerStep config capacity s a s' → a.conn = some c → ¬ Completed config h c →
      s'.clients = s.clients ∧ s'.events = s.events ∧ s'.registry = s.registry ∧
        s'.queue = s.queue := by
  have hI := refcount_run hrun
  refine ⟨hI.sum, fun rest hr he => ?_, fun a s' c hstep ha hno => unserved_run hrun hstep ha hno⟩
  have hone : 1 ≤ s.clients.active := by
    simpa using hI.covered hr [.disconnected] (he ▸ by simp)
  omega

/-! ### The idle branch -/

/-- While the idle branch is enabled, nobody is counted. -/
theorem idle_of_selecting (hrun : ServerRun config capacity ok h s)
    (hp : s.phase = .selecting true) : s.clients.isIdle = true := by
  obtain ⟨object, vector, hrun⟩ := hrun
  revert hp
  refine hrun.invariant_state (I := fun s => s.phase = .selecting true → s.clients.isIdle = true)
    (fun hp => by cases hp) fun h s a s' hI _ hstep hp => ?_
  rcases phase_step hstep with ⟨hsame, hclients⟩ | hsup
  · exact hclients ▸ hI (hsame.symm.trans hp)
  · rw [hp] at hsup
    generalize s'.clients = clients at hsup ⊢
    cases hsup with
    | guard _ hidle => exact hidle

/-- **When the idle branch cuts nobody.** The loop is left through it with no welcomed client
still served, if and only if no client is between its `Welcome` and its guard, and the channel
holds as many `Disconnected` as `Connected`. -/
theorem idle_cuts_none_iff (hrun : ServerRun config capacity ok h s)
    (hidle : ServerStep config capacity s .idle s') :
    (∀ c, ¬ (s.conn c).Served) ↔
      (∀ c, s.conn c ≠ .welcomed) ∧ s.events.count .connected = s.events.count .disconnected := by
  have hI := refcount_run hrun
  have hp : s.phase = .selecting true := by
    cases hidle with
    | idle hp _ => exact hp
  have hsum := hI.sum (by simp [hp])
  have hzero : s.clients.active = 0 := by
    simpa [Clients.isIdle] using idle_of_selecting hrun hp
  have hguards := population_eq_zero_iff hI.finite
  constructor
  · intro hnone
    have hno := hguards.mpr fun c hg => hnone c (.inr hg)
    exact ⟨fun c hw => hnone c (.inl hw), by omega⟩
  · rintro ⟨hnone, heq⟩ c (hw | hg)
    · exact hnone c hw
    · exact hguards.mp (by omega) c hg

/-- A condition that nothing fails but a no of `is_drained`, and what is done after the drain's
yes. -/
structure Lenient (ok : Guard (Server R newV5 W) (ServerAction newV5 W)) : Prop where
  /-- What is not a read. -/
  other : ∀ h s a, (∀ b, a ≠ .check b) → s.phase ≠ .drained → ok h s a
  /-- The first read. -/
  isEmpty : ∀ h s k, ok h s (.check (.isEmpty k))
  /-- A yes. -/
  yes : ∀ h s, s.queue.reading 0 = true → s.queue.inFlight = 0 →
    (∀ job, ¬ s.queue.daemon.Unfinished job) → ok h s (.check (.isDrained 0 true))

omit [DecidableEq W] in
theorem Lenient.and {ok' : Guard (Server R newV5 W) (ServerAction newV5 W)} (hok : Lenient ok)
    (hok' : Lenient ok') : Lenient fun h s a => ok h s a ∧ ok' h s a where
  other h s a ha hp := ⟨hok.other h s a ha hp, hok'.other h s a ha hp⟩
  isEmpty h s k := ⟨hok.isEmpty h s k, hok'.isEmpty h s k⟩
  yes h s hr hf hdone := ⟨hok.yes h s hr hf hdone, hok'.yes h s hr hf hdone⟩

/-- With nobody counted and nothing to do, the guard enables the idle branch. -/
theorem guard_run (hok : Lenient ok) (hrun : ServerRun config capacity ok h s)
    (hp : s.phase = .guarding) (hidle : s.clients.isIdle = true) (hflight : s.queue.inFlight = 0)
    (hdone : ∀ job, ¬ s.queue.daemon.Unfinished job) (hreading : s.queue.reading 0 = false) :
    ∃ h₂, ServerRun config capacity ok (h ++ h₂) { s with phase := .selecting true } := by
  obtain ⟨object, vector, hrun⟩ := hrun
  have hq : s.queue.daemon.queue = [] :=
    List.eq_nil_iff_forall_not_mem.mpr fun job hj => hdone job (.inl hj)
  obtain ⟨hempty, hyes⟩ := isDrained_yes capacity hreading hq hflight
  have h₁ := hrun.next (hok.isEmpty _ _ _) (.guard (a := .isEmpty 0) hp hidle rfl hempty)
  have h₂ := h₁.next (hok.yes _ _ (by simp) hflight hdone)
    (.guard (a := .isDrained 0 true) rfl hidle rfl hyes)
  rw [List.append_assoc] at h₂
  exact ⟨_, object, vector, h₂⟩

namespace Sample

/-- The daemon's configuration. -/
def settings : Config := ⟨"0.1.0", protocolVersion⟩

/-- The states of the daemon. -/
abbrev ServerMachine := Server ℚ Core.Sample.platform.newV5 (Fin writeWorkers)

/-- Their histories. -/
abbrev ServerLog :=
  History ServerMachine (ServerAction Core.Sample.platform.newV5 (Fin writeWorkers))

/-- A daemon that has just bound its socket. -/
def server : ServerMachine := .init (fun _ => none) fun _ => none

/-- The `Hello` of a client of the daemon's protocol. -/
def hello : Frame := .frame (some (.hello ⟨.replicate 16 0⟩ protocolVersion 7))

/-- It has nothing to do. -/
theorem finished_server (job : WriteJob Core.Sample.platform.newV5) :
    ¬ server.queue.daemon.Unfinished job := by
  rintro (hj | ⟨w, hw⟩)
  · cases hj
  · cases hw

/-- No condition is lenient. -/
theorem lenient_always : Lenient (Always : Guard ServerMachine _) :=
  ⟨fun _ _ _ _ _ => trivial, fun _ _ _ => trivial, fun _ _ _ _ _ => trivial⟩

variable {allows : Guard ServerMachine (ServerAction Core.Sample.platform.newV5 (Fin writeWorkers))}

/-- A client connects, and is sent its `Welcome`. -/
theorem welcomed_run (hok : Lenient allows) : ∃ h : ServerLog,
    ServerRun settings writeQueueCapacity allows h
      ((server.toConn 0 .greeting).toConn 0 .welcomed) := by
  have h₀ : ServerRun settings writeQueueCapacity allows [] server := ⟨_, _, .start⟩
  obtain ⟨h₁, object, vector, hrun⟩ := guard_run hok h₀ rfl rfl rfl finished_server rfl
  have h₂ := hrun.next (hok.other _ _ _ (by simp) (by simp)) (.accept (c := 0) rfl rfl)
  have h₃ := h₂.next (a := .greet 0 hello true) (hok.other _ _ _ (by simp) (by simp)) (.greet rfl)
  exact ⟨_, object, vector, h₃⟩

end Sample

/-- A client connects, and has its guard: its event is in the channel, and it is not counted yet. -/
theorem refcount_welcomed : ∃ (h : Sample.ServerLog) (s : Sample.ServerMachine),
    ServerRun Sample.settings writeQueueCapacity Always h s ∧ (s.conn 0).Guarded ∧
      s.clients.active + s.events.count .connected =
        s.events.count .disconnected + population Conn.Guarded s.conn := by
  obtain ⟨h, object, vector, hrun⟩ := Sample.welcomed_run Sample.lenient_always
  have h₁ := hrun.next trivial (.enter (c := 0) rfl)
  exact ⟨_, _, ⟨_, _, h₁⟩, trivial, (refcount ⟨_, _, h₁⟩).1 (by decide)⟩

namespace Sample

variable {allows : Guard ServerMachine (ServerAction Core.Sample.platform.newV5 (Fin writeWorkers))}

/-- A daemon that counts one client. -/
def counted : ServerMachine := { server.toConn 0 .waiting with clients := ⟨1⟩ }

/-- A daemon whose only client has left. -/
def vacated : ServerMachine := server.toConn 0 .closed

/-- A client is welcomed and counted. -/
theorem counted_run (hok : Lenient allows) : ∃ h : ServerLog,
    ServerRun settings writeQueueCapacity allows h counted ∧ Completed settings h 0 ∧
      ∃ t, (t, ServerAction.event .connected) ∈ h := by
  obtain ⟨h, object, vector, hwelcomed⟩ := welcomed_run hok
  obtain ⟨t, client, pid, hgreet⟩ : Completed settings h 0 :=
    served_run ⟨_, _, hwelcomed⟩ (.inl rfl)
  have henter := hwelcomed.next (hok.other _ _ _ (by simp) (by simp [server, Server.init]))
    (.enter (c := 0) rfl)
  obtain ⟨h₁, object, vector, hguard⟩ := guard_run hok ⟨_, _, henter⟩ rfl rfl rfl finished_server rfl
  have hevent := hguard.next (a := .event .connected) (hok.other _ _ _ (by simp) (by simp))
    (.event rfl rfl)
  obtain ⟨h₂, s, hrun, rfl, hcompleted, hmem⟩ : ∃ (h₂ : ServerLog) (s : ServerMachine),
      Run (ServerStep settings writeQueueCapacity) (.init object vector) allows h₂ s ∧
        s = counted ∧ Completed settings h₂ 0 ∧ ∃ t, (t, ServerAction.event .connected) ∈ h₂ := by
    refine ⟨_, _, hevent, ?_, ⟨t, client, pid, by simp [hgreet]⟩, _, List.mem_concat_self⟩
    simp [counted, server, Server.init, Server.take, Server.send, Server.toConn, Clients.new,
      Clients.connected]
  exact ⟨h₂, ⟨_, _, hrun⟩, hcompleted, hmem⟩

/-- It says `Bye`, and is gone. -/
theorem vacated_run (hok : Lenient allows) : ∃ h : ServerLog,
    ServerRun settings writeQueueCapacity allows h vacated ∧ Completed settings h 0 ∧
      ∃ t, (t, ServerAction.event .connected) ∈ h := by
  obtain ⟨h, ⟨object, vector, hcounted⟩, ⟨t, client, pid, hgreet⟩, u, hevent⟩ := counted_run hok
  have hother : ∀ h (s : ServerMachine) a, (∀ b, a ≠ ServerAction.check b) → s.phase ≠ .drained →
      allows h s a := hok.other
  have hbusy := hcounted.next (a := .busy)
    (hother _ _ _ (by simp) (by simp [counted, server, Server.init])) (.busy rfl rfl)
  have hbye := hbusy.next (a := .receive 0 (.frame (some .bye)))
    (hother _ _ _ (by simp) (by simp)) (.receive rfl)
  have hreply := hbye.next (a := .reply 0 true) (hother _ _ _ (by simp) (by simp)) (.reply rfl)
  have hleave := hreply.next (a := .leave 0) (hother _ _ _ (by simp) (by simp)) (.leave rfl)
  have hgone := hleave.next (a := .event .disconnected)
    (hother _ _ _ (by simp) (by simp)) (.event rfl rfl)
  obtain ⟨h₂, s, hrun, rfl, hcompleted, hmem⟩ : ∃ (h₂ : ServerLog) (s : ServerMachine),
      Run (ServerStep settings writeQueueCapacity) (.init object vector) allows h₂ s ∧
        s = vacated ∧ Completed settings h₂ 0 ∧ ∃ t, (t, ServerAction.event .connected) ∈ h₂ := by
    refine ⟨_, _, hgone, ?_, ⟨t, client, pid, by simp [hgreet]⟩, u, by simp [hevent]⟩
    simp [vacated, counted, server, Server.init, Server.take, Server.close, Server.send,
      Server.toConn, Conn.replied, Conn.received, Conn.Guarded, Clients.new, Clients.disconnected]
  exact ⟨h₂, ⟨_, _, hrun⟩, hcompleted, hmem⟩

end Sample

/-- A client is welcomed, counted and served, and leaves; then the loop is left by the idle
branch. -/
theorem idle_cuts_none : ∃ (h : Sample.ServerLog) (s : Sample.ServerMachine),
    ServerRun Sample.settings writeQueueCapacity Always h s ∧ Completed Sample.settings h 0 ∧
      (∃ t, (t, .event .connected) ∈ h) ∧
        (∃ s', ServerStep Sample.settings writeQueueCapacity s .idle s') ∧
          ∀ c, ¬ (s.conn c).Served := by
  obtain ⟨h, hrun, ⟨t, client, pid, hgreet⟩, t', hcounted⟩ :=
    Sample.vacated_run Sample.lenient_always
  obtain ⟨h₁, object, vector, hidle⟩ :=
    guard_run Sample.lenient_always hrun rfl rfl rfl Sample.finished_server rfl
  have hexpired := hidle.next trivial .expire
  have hnone : ∀ c, Sample.vacated.conn c ≠ .welcomed := by
    intro c
    by_cases hc : c = 0 <;> simp [Sample.vacated, Sample.server, Server.init, hc]
  exact ⟨_, _, ⟨_, _, hexpired⟩, ⟨t, client, pid, by simp [hgreet]⟩, ⟨t', by simp [hcounted]⟩,
    ⟨_, .idle rfl rfl⟩, (idle_cuts_none_iff ⟨_, _, hexpired⟩ (.idle rfl rfl)).mpr ⟨hnone, rfl⟩⟩

/-- **The idle branch may cut a client**: it has its `Welcome`, and its guard is not made yet. -/
theorem idle_cuts_client :
    ¬ ∀ (h : Sample.ServerLog) (s s' : Sample.ServerMachine),
      ServerRun Sample.settings writeQueueCapacity Always h s →
        ServerStep Sample.settings writeQueueCapacity s .idle s' → ∀ c, ¬ (s.conn c).Served := by
  intro hall
  obtain ⟨h, hrun⟩ := Sample.welcomed_run Sample.lenient_always
  obtain ⟨h₁, object, vector, hrun⟩ :=
    guard_run Sample.lenient_always hrun rfl rfl rfl Sample.finished_server rfl
  have h₂ := hrun.next trivial .expire
  exact hall _ _ _ ⟨_, _, h₂⟩ (.idle rfl rfl) 0 (.inl rfl)

end Semisweet.Daemon
