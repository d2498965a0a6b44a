import Semisweet.Client.Stub
import Semisweet.Foundations.Locks

/-!
# Registering a namespace

`handle_register` (`src/daemon/conn.rs`) with `resolve`, `register` and `build_lock`
(`src/daemon/state.rs`). A call asks for the build lock of its namespace, which is made on
first request; waits for it; looks whether the namespace is there; and if not, reads the
configuration, has the cache built, and puts the entry into the registry. The build lock is
held until the call returns, and the answer is sent after that.

## The model

Any number of calls, each for any namespace, in any order. Mutexes and entries are told apart
by the address they are allocated at. What the configuration parses to and what the build returns
is left open: each may fail in any way it can, and the pool may shut down. A poisoned lock makes
`build_lock`, `resolve` and `register` fail. A call may be dropped anywhere, by a cancelled
connection or a panic; its guard is then dropped with it, and what it was building is lost.

## What is proved

* `once_run` — who has a namespace's build lock has it alone; who is building one finds it missing
  all along; who answers `Registered` finds it there.
* `registered_once` — a namespace is registered at most once, its entry stays, and `Registered` is
  answered only when it is there.
-/

namespace Semisweet.Daemon

open Semisweet.Core Semisweet.Foundations Semisweet.Protocol

/-- Where a call of `handle_register` is. -/
inductive Registration where
  /-- It is not made yet. -/
  | absent
  /-- Before `build_lock`. -/
  | asking (ns configJson : String)
  /-- It waits for the mutex. -/
  | queueing (ns configJson : String) (mutex : ℕ)
  /-- It has the mutex, and looks for the namespace. -/
  | checking (ns configJson : String) (mutex : ℕ)
  /-- The namespace is not there, and the configuration is read. -/
  | parsing (ns configJson : String) (mutex : ℕ)
  /-- It waits for the build. -/
  | building (ns : String) (mutex : ℕ)
  /-- It has the cache, and registers it. -/
  | built (ns : String) (mutex entry : ℕ)
  /-- It returns, and drops the mutex. -/
  | returning (ns : String) (mutex : ℕ) (response : Response)
  /-- It has returned, and the answer is to be sent. -/
  | answering (ns : String) (response : Response)
  /-- The answer is sent. -/
  | answered
  /-- It was dropped. -/
  | dropped

namespace Registration

/-- The mutex the call holds. -/
def held : Registration → Option ℕ
  | .checking _ _ mutex | .parsing _ _ mutex | .building _ mutex | .built _ mutex _
  | .returning _ mutex _ => some mutex
  | _ => none

/-- The call holds the mutex. -/
def Holds (mutex : ℕ) (x : Registration) : Prop := x.held = some mutex

/-- The mutex `build_lock` gave the call, for its namespace. -/
def given : Registration → Option (String × ℕ)
  | .queueing ns _ mutex | .checking ns _ mutex | .parsing ns _ mutex | .building ns mutex
  | .built ns mutex _ | .returning ns mutex _ => some (ns, mutex)
  | _ => none

/-- The namespace the call did not find, and is building. -/
def missing : Registration → Option String
  | .parsing ns _ _ | .building ns _ | .built ns _ _ => some ns
  | _ => none

/-- The answer the call has, for its namespace. -/
def answer : Registration → Option (String × Response)
  | .returning ns _ response | .answering ns response => some (ns, response)
  | _ => none

/-- Who is building a namespace holds the mutex it was given for it. -/
theorem given_of_missing {x : Registration} {ns : String} (hx : x.missing = some ns) :
    ∃ mutex, x.given = some (ns, mutex) ∧ x.Holds mutex := by
  cases x with
  | parsing _ _ mutex | building _ mutex | built _ mutex _ =>
    obtain rfl := Option.some.inj hx
    exact ⟨mutex, rfl, rfl⟩
  | _ => cases hx

end Registration

/-- What the calls share. -/
structure Namespaces where
  /-- The calls. -/
  call : ℕ → Registration
  /-- `build_locks`. -/
  buildLocks : String → Option ℕ
  /-- Who holds a mutex. -/
  holder : ℕ → Option ℕ
  /-- `registry`. -/
  registry : String → Option ℕ
  /-- The next address. -/
  next : ℕ

namespace Namespaces

/-- `DaemonState::new`. -/
def new : Namespaces := ⟨fun _ => .absent, fun _ => none, fun _ => none, fun _ => none, 0⟩

variable (self : Namespaces)

/-- `resolve`. -/
def resolve (ns : String) : Option ℕ := self.registry ns

/-- `register`. -/
def register (ns : String) (entry : ℕ) : Namespaces :=
  { self with registry := Function.update self.registry ns (some entry) }

/-- `build_lock`. -/
def buildLock (ns : String) : Namespaces × ℕ :=
  match self.buildLocks ns with
  | some mutex => (self, mutex)
  | none =>
    ({ self with
        buildLocks := Function.update self.buildLocks ns (some self.next)
        next := self.next + 1 }, self.next)

/-- Call `c` goes on to `x`. -/
def toCall (c : ℕ) (x : Registration) : Namespaces :=
  { self with call := Function.update self.call c x }

/-- Call `c` drops the mutex it holds, if any. -/
def unlock (c : ℕ) : Namespaces :=
  match (self.call c).held with
  | some mutex => { self with holder := Function.update self.holder mutex none }
  | none => self

end Namespaces

/-- What is done. -/
inductive RegistryAction where
  /-- A `RegisterNamespace`. -/
  | request (c : ℕ) (ns configJson : String)
  /-- `build_lock`. -/
  | buildLock (c : ℕ)
  /-- `build_lock` fails. -/
  | buildLockFailed (c : ℕ)
  /-- The mutex is locked. -/
  | lock (c : ℕ)
  /-- `resolve`. -/
  | resolve (c : ℕ)
  /-- `resolve` fails. -/
  | resolveFailed (c : ℕ)
  /-- `from_str`, and its error. -/
  | parse (c : ℕ) (error : Option String)
  /-- `build_cache`, in the pool. -/
  | build (c : ℕ) (outcome : Except Error Unit)
  /-- `register`. -/
  | register (c : ℕ) (ns : String) (entry : ℕ)
  /-- `register` fails. -/
  | registerFailed (c : ℕ)
  /-- The call returns. -/
  | finish (c : ℕ)
  /-- The answer is sent. -/
  | send (c : ℕ) (ns : String) (response : Response)
  /-- The call is dropped. -/
  | drop (c : ℕ)

/-- The namespace that is registered with this. -/
def RegistryAction.registers : RegistryAction → Option String
  | .register _ ns _ => some ns
  | _ => none

/-- A poisoned registry lock. -/
def registryPoisoned : Response := backendError (.daemon "registry lock poisoned")

/-- A poisoned lock of the build locks. -/
def buildLocksPoisoned : Response := backendError (.daemon "build-locks lock poisoned")

/-- A configuration that does not parse. -/
def invalidConfig (error : String) : Response :=
  .error (.invalidRequest ("invalid namespace config: " ++ error))

/-- One step of a call. -/
inductive RegistryStep : Namespaces → RegistryAction → Namespaces → Prop
  /-- A call is made. -/
  | request {s : Namespaces} {c : ℕ} {ns configJson : String} :
      s.call c = .absent →
        RegistryStep s (.request c ns configJson) (s.toCall c (.asking ns configJson))
  /-- The mutex of the namespace, made on first request. -/
  | buildLock {s : Namespaces} {c : ℕ} {ns configJson : String} :
      s.call c = .asking ns configJson →
        RegistryStep s (.buildLock c)
          ((s.buildLock ns).1.toCall c (.queueing ns configJson (s.buildLock ns).2))
  /-- The call returns. -/
  | buildLockFailed {s : Namespaces} {c : ℕ} {ns configJson : String} :
      s.call c = .asking ns configJson →
        RegistryStep s (.buildLockFailed c) (s.toCall c (.answering ns buildLocksPoisoned))
  /-- The mutex is free. -/
  | lock {s : Namespaces} {c : ℕ} {ns configJson : String} {mutex : ℕ} :
      s.call c = .queueing ns configJson mutex → s.holder mutex = none →
        RegistryStep s (.lock c)
          ({ s with holder := Function.update s.holder mutex (some c) }.toCall c
            (.checking ns configJson mutex))
  /-- Is the namespace there? -/
  | resolve {s : Namespaces} {c : ℕ} {ns configJson : String} {mutex : ℕ} :
      s.call c = .checking ns configJson mutex →
        RegistryStep s (.resolve c)
          (s.toCall c (match s.resolve ns with
            | some _ => .returning ns mutex .registered
            | none => .parsing ns configJson mutex))
  /-- The call returns. -/
  | resolveFailed {s : Namespaces} {c : ℕ} {ns configJson : String} {mutex : ℕ} :
      s.call c = .checking ns configJson mutex →
        RegistryStep s (.resolveFailed c) (s.toCall c (.returning ns mutex registryPoisoned))
  /-- Is the configuration valid? -/
  | parse {s : Namespaces} {c : ℕ} {ns configJson : String} {mutex : ℕ} {error : Option String} :
      s.call c = .parsing ns configJson mutex →
        RegistryStep s (.parse c error)
          (s.toCall c (match error with
            | some message => .returning ns mutex (invalidConfig message)
            | none => .building ns mutex))
  /-- The cache is built, at an address of its own. -/
  | built {s : Namespaces} {c : ℕ} {ns : String} {mutex : ℕ} :
      s.call c = .building ns mutex →
        RegistryStep s (.build c (.ok ()))
          ({ s with next := s.next + 1 }.toCall c (.built ns mutex s.next))
  /-- The build fails, or the pool shuts down. -/
  | unbuilt {s : Namespaces} {c : ℕ} {ns : String} {mutex : ℕ} {e : Error} :
      s.call c = .building ns mutex →
        RegistryStep s (.build c (.error e)) (s.toCall c (.returning ns mutex (backendError e)))
  /-- The entry is there. -/
  | register {s : Namespaces} {c : ℕ} {ns : String} {mutex entry : ℕ} :
      s.call c = .built ns mutex entry →
        RegistryStep s (.register c ns entry)
          ((s.register ns entry).toCall c (.returning ns mutex .registered))
  /-- The call returns. -/
  | registerFailed {s : Namespaces} {c : ℕ} {ns : String} {mutex entry : ℕ} :
      s.call c = .built ns mutex entry →
        RegistryStep s (.registerFailed c) (s.toCall c (.returning ns mutex registryPoisoned))
  /-- The mutex is dropped. -/
  | finish {s : Namespaces} {c : ℕ} {ns : String} {mutex : ℕ} {response : Response} :
      s.call c = .returning ns mutex response →
        RegistryStep s (.finish c) ((s.unlock c).toCall c (.answering ns response))
  /-- The client has its answer. -/
  | send {s : Namespaces} {c : ℕ} {ns : String} {response : Response} :
      s.call c = .answering ns response →
        RegistryStep s (.send c ns response) (s.toCall c .answered)
  /-- The mutex, if the call holds it, is dropped. -/
  | drop {s : Namespaces} {c : ℕ} : RegistryStep s (.drop c) ((s.unlock c).toCall c .dropped)

/-- The runs of the calls, under a condition on their steps. -/
def RegistryRun (ok : Guard Namespaces RegistryAction) (h : History Namespaces RegistryAction)
    (s : Namespaces) : Prop :=
  Run RegistryStep Namespaces.new ok h s

variable {s s' t : Namespaces} {a : RegistryAction} {h : History Namespaces RegistryAction}
  {ok : Guard Namespaces RegistryAction} {c : ℕ} {x y : Registration}

section BuildLock

variable (s) (ns : String)

@[simp] theorem Namespaces.buildLock_call : (s.buildLock ns).1.call = s.call := by
  unfold Namespaces.buildLock
  split <;> rfl

@[simp] theorem Namespaces.buildLock_holder : (s.buildLock ns).1.holder = s.holder := by
  unfold Namespaces.buildLock
  split <;> rfl

@[simp] theorem Namespaces.buildLock_registry : (s.buildLock ns).1.registry = s.registry := by
  unfold Namespaces.buildLock
  split <;> rfl

/-- The mutex is the namespace's from now on. -/
theorem Namespaces.buildLock_given :
    (s.buildLock ns).1.buildLocks ns = some (s.buildLock ns).2 := by
  unfold Namespaces.buildLock
  split
  · assumption
  · simp

/-- A namespace keeps its mutex. -/
theorem Namespaces.buildLock_stable {ns' : String} {mutex : ℕ}
    (hm : s.buildLocks ns' = some mutex) : (s.buildLock ns).1.buildLocks ns' = some mutex := by
  unfold Namespaces.buildLock
  split
  · exact hm
  · rename_i hnone
    have hne : ns' ≠ ns := by
      rintro rfl
      rw [hm] at hnone
      cases hnone
    simpa [hne] using hm

end BuildLock

section Unlock

variable (s c)

@[simp] theorem Namespaces.unlock_call : (s.unlock c).call = s.call := by
  unfold Namespaces.unlock
  split <;> rfl

@[simp] theorem Namespaces.unlock_buildLocks : (s.unlock c).buildLocks = s.buildLocks := by
  unfold Namespaces.unlock
  split <;> rfl

@[simp] theorem Namespaces.unlock_registry : (s.unlock c).registry = s.registry := by
  unfold Namespaces.unlock
  split <;> rfl

end Unlock

/-! ### One call at a time -/

/-- What holds of the calls all along. -/
structure Once (s : Namespaces) : Prop where
  /-- A mutex has one holder. -/
  guards : ∀ mutex, Guards (s.holder mutex) (Registration.Holds mutex) s.call
  /-- The mutex a call was given is the namespace's. -/
  given : ∀ c ns mutex, (s.call c).given = some (ns, mutex) → s.buildLocks ns = some mutex
  /-- A namespace that is being built is not there. -/
  missing : ∀ c ns, (s.call c).missing = some ns → s.resolve ns = none
  /-- A namespace that is answered `Registered` is there. -/
  registered : ∀ c ns, (s.call c).answer = some (ns, .registered) → s.resolve ns ≠ none

theorem once_new : Once .new where
  guards _ _ hx := by cases hx
  given _ _ _ hx := by cases hx
  missing _ _ hx := by cases hx
  registered _ _ hx := by cases hx

/-- Call `c` goes on to `y`, and the others stay. -/
theorem forall_update {P : Registration → Prop} (hI : ∀ c', c' ≠ c → P (s.call c')) (hy : P y)
    (c' : ℕ) : P (Function.update s.call c y c') := by
  by_cases hc : c' = c
  · subst hc
    rwa [Function.update_self]
  · rw [Function.update_of_ne hc]
    exact hI c' hc

/-- A call goes on, with what it needs for that; what the others have they keep. -/
theorem Once.toCall (hI : Once s) (hcall : t.call = s.call)
    (hlocks : ∀ ns mutex, s.buildLocks ns = some mutex → t.buildLocks ns = some mutex)
    (hothers : ∀ c' ns, c' ≠ c → (s.call c').missing = some ns → t.resolve ns = none)
    (hgrows : ∀ ns, s.resolve ns ≠ none → t.resolve ns ≠ none)
    (hguards : ∀ mutex,
      Guards (t.holder mutex) (Registration.Holds mutex) (Function.update s.call c y))
    (hgiven : ∀ ns mutex, y.given = some (ns, mutex) → t.buildLocks ns = some mutex)
    (hmissing : ∀ ns, y.missing = some ns → t.resolve ns = none)
    (hregistered : ∀ ns, y.answer = some (ns, .registered) → t.resolve ns ≠ none) :
    Once (t.toCall c y) := by
  have hcalls : (t.toCall c y).call = Function.update s.call c y := by rw [Namespaces.toCall, hcall]
  refine ⟨fun mutex => hcalls ▸ hguards mutex, ?_, ?_, ?_⟩
  all_goals rw [hcalls]
  · exact forall_update (P := fun x => ∀ ns mutex, x.given = some (ns, mutex) →
      t.buildLocks ns = some mutex)
      (fun c' _ ns mutex hx => hlocks ns mutex (hI.given c' ns mutex hx)) hgiven
  · exact forall_update (P := fun x => ∀ ns, x.missing = some ns → t.resolve ns = none)
      (fun c' hc ns => hothers c' ns hc) hmissing
  · exact forall_update
      (P := fun x => ∀ ns, x.answer = some (ns, .registered) → t.resolve ns ≠ none)
      (fun c' _ ns hx => hgrows ns (hI.registered c' ns hx)) hregistered

/-- A call goes on with the mutex it has, and holds it as before. -/
theorem Once.advance (hI : Once s) (n : ℕ) (hx : s.call c = x) (hheld : y.held = x.held)
    (hgiven : y.given = x.given) (hmissing : ∀ ns, y.missing = some ns → s.resolve ns = none)
    (hregistered : ∀ ns, y.answer = some (ns, .registered) → s.resolve ns ≠ none) :
    Once ({ s with next := n }.toCall c y) := by
  refine hI.toCall rfl (fun _ _ hm => hm) (fun c' ns _ => hI.missing c' ns) (fun _ hr => hr)
    (fun mutex => ?_) (fun ns mutex hy => ?_) hmissing hregistered
  · exact (hI.guards mutex).move fun hy =>
      hI.guards mutex c (by rwa [hx, Registration.Holds, ← hheld])
  · exact hI.given c ns mutex (by rwa [hx, ← hgiven])

/-- A call drops what it holds, and is given nothing more. -/
theorem Once.unlock (hI : Once s) (hheld : y.held = none) (hgiven : y.given = none)
    (hmissing : y.missing = none)
    (hregistered : ∀ ns, y.answer = some (ns, .registered) → s.resolve ns ≠ none) :
    Once ((s.unlock c).toCall c y) := by
  have hresolve : (s.unlock c).resolve = s.resolve := s.unlock_registry c
  refine hI.toCall (s.unlock_call c) (fun ns mutex hm => by simpa using hm)
    (fun c' ns _ => hresolve ▸ hI.missing c' ns) (fun _ hr => hresolve ▸ hr)
    (fun mutex => ?_) (fun ns mutex hy => ?_) (fun ns hy => ?_) (hresolve ▸ hregistered)
  · have hout : ¬ y.Holds mutex := by simp [Registration.Holds, hheld]
    unfold Namespaces.unlock
    cases hx : (s.call c).held with
    | none => exact (hI.guards mutex).move fun hy => absurd hy hout
    | some m =>
      by_cases hm : mutex = m
      · subst hm
        have hguards := hI.guards mutex
        rw [hguards c hx] at hguards
        simpa using hguards.release hout
      · simpa [Function.update_of_ne hm] using (hI.guards mutex).move fun hy => absurd hy hout
  · rw [hgiven] at hy
    cases hy
  · rw [hmissing] at hy
    cases hy

/-- A call takes the mutex it was given. -/
theorem Once.lock (hI : Once s) {ns configJson : String} {mutex : ℕ}
    (hx : s.call c = .queueing ns configJson mutex) (hfree : s.holder mutex = none) :
    Once ({ s with holder := Function.update s.holder mutex (some c) }.toCall c
      (.checking ns configJson mutex)) := by
  refine hI.toCall rfl (fun _ _ hm => hm) (fun c' ns _ => hI.missing c' ns) (fun _ hr => hr)
    (fun m => ?_) (fun ns' m hy => ?_) (fun _ hy => by cases hy) fun _ hy => by cases hy
  · have hguards := hI.guards m
    by_cases hm : m = mutex
    · subst hm
      rw [hfree] at hguards
      simpa using hguards.acquire
    · have hout : ¬ (Registration.checking ns configJson mutex).Holds m := fun hy =>
        hm (Option.some.inj hy).symm
      simpa [Function.update_of_ne hm] using hguards.move fun hy => absurd hy hout
  · exact hI.given c ns' m (by rwa [hx])

/-- Who registers a namespace is the only one who is building it. -/
theorem Once.register (hI : Once s) {ns : String} {mutex entry : ℕ}
    (hx : s.call c = .built ns mutex entry) :
    Once ((s.register ns entry).toCall c (.returning ns mutex .registered)) := by
  have halone : ∀ c', c' ≠ c → (s.call c').missing ≠ some ns := by
    intro c' hc' hy
    obtain ⟨m, hgiven, hheld⟩ := Registration.given_of_missing hy
    have hm := hI.given c' ns m hgiven
    have hm' := hI.given c ns mutex (by rw [hx]; rfl)
    obtain rfl := Option.some.inj (hm.symm.trans hm')
    exact hc' ((hI.guards m).unique hheld (by rw [hx]; rfl))
  refine hI.toCall rfl (fun _ _ hm => hm) (fun c' ns' hc hy => ?_) (fun ns' hr => ?_) (fun m => ?_)
    (fun ns' m hy => ?_) (fun _ hy => by cases hy) fun ns' hy => ?_
  · have hne : ns' ≠ ns := fun heq => halone c' hc (heq ▸ hy)
    simpa [Namespaces.resolve, Namespaces.register, hne] using hI.missing c' ns' hy
  · by_cases hne : ns' = ns
    · subst hne
      simp [Namespaces.resolve, Namespaces.register]
    · simpa [Namespaces.resolve, Namespaces.register, hne] using hr
  · exact (hI.guards m).move fun hy => hI.guards m c (by rwa [hx])
  · exact hI.given c ns' m (by rwa [hx])
  · obtain ⟨rfl, -⟩ := Prod.mk.inj (Option.some.inj hy)
    simp [Namespaces.resolve, Namespaces.register]

theorem once_step (hI : Once s) (hstep : RegistryStep s a s') : Once s' := by
  cases hstep with
  | request hx | buildLockFailed hx | resolveFailed hx | unbuilt hx | registerFailed hx | send hx =>
    exact hI.advance s.next hx rfl rfl (fun _ hy => by cases hy) fun _ hy => by cases hy
  | @buildLock c ns configJson hx =>
    have hresolve : (s.buildLock ns).1.resolve = s.resolve := s.buildLock_registry ns
    refine hI.toCall (s.buildLock_call ns) (fun _ _ hm => s.buildLock_stable ns hm)
      (fun c' ns' _ => hresolve ▸ hI.missing c' ns') (fun _ hr => hresolve ▸ hr) (fun mutex => ?_)
      (fun ns' mutex hy => ?_) (fun _ hy => by cases hy) fun _ hy => by cases hy
    · rw [s.buildLock_holder ns]
      exact (hI.guards mutex).move fun hy => by cases hy
    · obtain ⟨rfl, rfl⟩ := Prod.mk.inj (Option.some.inj hy)
      exact s.buildLock_given ns
  | lock hx hfree => exact hI.lock hx hfree
  | resolve hx =>
    split
    · rename_i hsome
      refine hI.advance s.next hx rfl rfl (fun _ hy => by cases hy) fun ns hy => ?_
      obtain ⟨rfl, -⟩ := Prod.mk.inj (Option.some.inj hy)
      simp [hsome]
    · rename_i hnone
      refine hI.advance s.next hx rfl rfl (fun ns hy => ?_) fun _ hy => by cases hy
      obtain rfl := Option.some.inj hy
      exact hnone
  | @parse c _ _ _ _ hx =>
    have hmissing := hI.missing c
    rw [hx] at hmissing
    split
    · exact hI.advance s.next hx rfl rfl (fun _ hy => by cases hy) fun _ hy => by cases hy
    · exact hI.advance s.next hx rfl rfl hmissing fun _ hy => by cases hy
  | @built c _ _ hx =>
    have hmissing := hI.missing c
    rw [hx] at hmissing
    exact hI.advance (s.next + 1) hx rfl rfl hmissing fun _ hy => by cases hy
  | register hx => exact hI.register hx
  | @finish c _ _ _ hx =>
    have hregistered := hI.registered c
    rw [hx] at hregistered
    exact hI.unlock rfl rfl rfl hregistered
  | drop => exact hI.unlock rfl rfl rfl fun _ hy => by cases hy

/-- **One call at a time**, in every run. -/
theorem once_run (hrun : RegistryRun ok h s) : Once s :=
  hrun.invariant_state once_new fun _ _ _ _ hI _ hstep => once_step hI hstep

/-! ### Once registered, registered -/

/-- **What a step does to the registry**: nothing, or it registers a namespace that was built. -/
theorem resolve_step (hstep : RegistryStep s a s') :
    (a.registers = none ∧ s'.resolve = s.resolve) ∨
      ∃ c ns mutex entry, a = .register c ns entry ∧ s.call c = .built ns mutex entry ∧
        s'.resolve = Function.update s.resolve ns (some entry) := by
  cases hstep with
  | register hx => exact .inr ⟨_, _, _, _, rfl, hx, rfl⟩
  | buildLock _ => exact .inl ⟨rfl, Namespaces.buildLock_registry s _⟩
  | finish _ | drop => exact .inl ⟨rfl, Namespaces.unlock_registry s _⟩
  | _ => exact .inl ⟨rfl, rfl⟩

/-- An entry stays. -/
theorem resolve_stable (hI : Once s) (hstep : RegistryStep s a s') {ns : String} {entry : ℕ}
    (hr : s.resolve ns = some entry) : s'.resolve ns = some entry := by
  rcases resolve_step hstep with ⟨-, hs'⟩ | ⟨c, ns', mutex, entry', -, hx, hs'⟩
  · rw [hs', hr]
  · have hne : ns ≠ ns' := by
      rintro rfl
      have hnone := hI.missing c ns (by rw [hx]; rfl)
      rw [hr] at hnone
      cases hnone
    rw [hs', Function.update_of_ne hne, hr]

/-- A namespace that is there was registered once, and one that is not was not. -/
theorem count_registers (hrun : RegistryRun ok h s) (ns : String) :
    h.countP (fun t => t.2.registers = some ns) = if s.resolve ns = none then 0 else 1 := by
  refine hrun.invariant
    (I := fun h s => h.countP (fun t => t.2.registers = some ns) =
      if s.resolve ns = none then 0 else 1)
    rfl fun h s a s' hr hI _ hstep => ?_
  rw [List.countP_append, hI]
  rcases resolve_step hstep with ⟨ha, hs'⟩ | ⟨c, ns', mutex, entry, rfl, hx, hs'⟩
  · simp [ha, hs']
  · have hnone := (once_run hr).missing c ns' (by rw [hx]; rfl)
    by_cases hne : ns = ns'
    · subst hne
      simp [hs', hnone, RegistryAction.registers]
    · simp [hs', hne, Ne.symm hne, RegistryAction.registers]

/-- **A namespace is built once and stays.** In every run, for every namespace: at most one build is
registered; an entry that was there is there; and `Registered` is answered only when there is
one. -/
theorem registered_once (hrun : RegistryRun ok h s) (ns : String) :
    h.countP (fun t => t.2.registers = some ns) ≤ 1 ∧
      (∀ t ∈ h, ∀ entry, t.1.resolve ns = some entry → s.resolve ns = some entry) ∧
        ∀ s₀ c, (s₀, RegistryAction.send c ns .registered) ∈ h → s₀.resolve ns ≠ none := by
  refine ⟨?_, fun t ht entry hr => ?_, fun s₀ c hm => ?_⟩
  · rw [count_registers hrun ns]
    split <;> omega
  · obtain ⟨h₁, h₂, rfl⟩ := List.append_of_mem ht
    refine Run.invariant_after (I := fun _ s => s.resolve ns = some entry) hrun
      (fun s' hrun hstep => resolve_stable (once_run hrun) hstep hr)
      fun h s a s' hrun hI _ hstep => resolve_stable (once_run hrun) hstep hI
  · obtain ⟨h₁, -, s', -, hrun, -, hstep, -⟩ := hrun.exists_of_mem hm
    cases hstep with
    | send hx => exact (once_run hrun).registered c ns (by rw [hx]; rfl)

/-- Two calls for one namespace: the second waits for the first, and finds what it built. -/
theorem registered_once_two : ∃ (h : History Namespaces RegistryAction) (s : Namespaces),
    RegistryRun Always h s ∧ h.countP (fun t => t.2.registers = some "prod") ≤ 1 ∧
      ∃ s₀, (s₀, .send 1 "prod" .registered) ∈ h ∧ s₀.resolve "prod" ≠ none := by
  have h₀ : Run RegistryStep .new Always [] _ := .start
  have h₁ := h₀.next (a := .request 0 "prod" Client.Sample.config) trivial (.request rfl)
  have h₂ := h₁.next (a := .request 1 "prod" Client.Sample.config) trivial (.request rfl)
  have h₃ := h₂.next (a := .buildLock 0) trivial (.buildLock rfl)
  have h₄ := h₃.next (a := .buildLock 1) trivial (.buildLock rfl)
  have h₅ := h₄.next (a := .lock 0) trivial (.lock rfl rfl)
  have h₆ := h₅.next (a := .resolve 0) trivial (.resolve rfl)
  have h₇ := h₆.next (a := .parse 0 none) trivial (.parse rfl)
  have h₈ := h₇.next (a := .build 0 (.ok ())) trivial (.built rfl)
  have h₉ := h₈.next (a := .register 0 "prod" 1) trivial (.register rfl)
  have h₁₀ := h₉.next (a := .finish 0) trivial (.finish rfl)
  have h₁₁ := h₁₀.next (a := .lock 1) trivial (.lock rfl rfl)
  have h₁₂ := h₁₁.next (a := .resolve 1) trivial (.resolve rfl)
  have h₁₃ := h₁₂.next (a := .finish 1) trivial (.finish rfl)
  have h₁₄ := h₁₃.next (a := .send 1 "prod" .registered) trivial (.send rfl)
  obtain ⟨hone, -, hthere⟩ := registered_once h₁₄ "prod"
  exact ⟨_, _, h₁₄, hone, _, List.mem_concat_self, hthere _ 1 List.mem_concat_self⟩

end Semisweet.Daemon
