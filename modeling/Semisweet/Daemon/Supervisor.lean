import Semisweet.Daemon.Connection

/-!
# The supervisor

`run` (`src/daemon/supervisor.rs`): the accept loop, the connection count and the shutdown.
Connections tell the supervisor through a channel that they are counted and that they are
gone. Its `select!` waits for a connection, an event, the idle timer or SIGTERM; the branch
of the timer is guarded by `clients.is_idle() && state.writer.is_drained()`, which is
evaluated when the `select!` is entered and not again until another branch fires. Once the
loop is left, by the timer or by SIGTERM, `run` waits until the queue is drained or a
deadline has passed, and returns.

## The model

One daemon: the supervisor, the channel, the connections' tasks, and the queue with the
workers and the stores behind it. All of them interleave in any order, before the loop is left
and after.

* `select!` may take any branch that is ready. A connection may come at any time, an accept
  may fail, SIGTERM may come; the timer expires some time after it was set.
* Taking an event and counting it is one step: nobody else sees the count.
* A connection's task may panic anywhere, and its guard is then dropped.
* A read of the queue by `is_drained` is a step of its own. The supervisor is caller `0`.
* Once `run` has returned, the channel has no receiver, and what is sent is lost.
-/

namespace Semisweet.Daemon

open Semisweet.Core Semisweet.Foundations Semisweet.Protocol

/-- `ClientEvent`. -/
inductive ClientEvent where
  /-- A guard was made. -/
  | connected
  /-- A guard was dropped. -/
  | disconnected
  deriving DecidableEq

/-- `Clients`. -/
structure Clients where
  /-- How many are counted. -/
  active : ℕ
  deriving DecidableEq

namespace Clients

/-- `Clients::new`. -/
def new : Clients := ⟨0⟩

/-- `Clients::connected`. -/
def connected (self : Clients) : Clients := ⟨self.active + 1⟩

/-- `Clients::is_idle`. -/
def isIdle (self : Clients) : Bool := self.active == 0

/-- `Clients::disconnected`. -/
def disconnected (self : Clients) : Clients × Bool :=
  let self := ⟨self.active - 1⟩
  (self, self.isIdle)

end Clients

/-- Where `run` is. -/
inductive Phase where
  /-- Before `select!`: the guard of the idle branch is evaluated. -/
  | guarding
  /-- In `select!`, with the idle branch enabled or not. -/
  | selecting (idle : Bool)
  /-- The loop is left, and `is_drained` is asked. -/
  | draining
  /-- `is_drained` said no. -/
  | undrained
  /-- Between two questions. -/
  | sleeping
  /-- `is_drained` said yes. -/
  | drained
  /-- `run` has returned. -/
  | returned
  deriving DecidableEq

/-- The loop is left, and `run` has not returned. -/
def Phase.Exiting : Phase → Prop
  | .draining | .undrained | .sleeping | .drained => True
  | _ => False

/-- The daemon. -/
structure Server (R : Type) [Field R] (newV5 : Uuid → List UInt8 → Uuid) (W : Type) where
  /-- The queue, the workers and the stores. -/
  queue : QueueState R newV5 W
  /-- The namespaces that are registered. -/
  registry : Finset String
  /-- The connections' tasks. -/
  conn : ℕ → Conn
  /-- The supervisor. -/
  phase : Phase
  /-- Its count. -/
  clients : Clients
  /-- The channel, oldest event first. -/
  events : List ClientEvent
  /-- Whether the idle timer has expired. -/
  expired : Bool
  /-- Whether the deadline of the drain has passed. -/
  late : Bool

/-- What is done. -/
inductive ServerAction (newV5 : Uuid → List UInt8 → Uuid) (W : Type) where
  /-- The guard: a client is counted. -/
  | busy
  /-- The guard, or the drain: a read of the queue. -/
  | check (a : QueueAction newV5 W)
  /-- A connection is accepted. -/
  | accept (c : ℕ)
  /-- An accept fails. -/
  | acceptFailed
  /-- An event is taken, and counted. -/
  | event (e : ClientEvent)
  /-- The idle branch: the loop is left. -/
  | idle
  /-- SIGTERM: the loop is left. -/
  | sigterm
  /-- The drain: wait. -/
  | sleep
  /-- The drain: ask again. -/
  | wake
  /-- The drain: the deadline has passed, and `run` returns. -/
  | giveUp
  /-- The drain: the queue is drained, and `run` returns. -/
  | finish
  /-- The idle timer expires. -/
  | expire
  /-- The deadline of the drain passes. -/
  | deadline
  /-- `handshake`. -/
  | greet (c : ℕ) (frame : Frame) (sent : Bool)
  /-- `ConnectionGuard::enter`. -/
  | enter (c : ℕ)
  /-- `message_loop`: a frame. -/
  | receive (c : ℕ) (frame : Frame)
  /-- `message_loop`: a step of a handler. -/
  | handle (c : ℕ) (a : Action newV5 W)
  /-- `message_loop`: a handler answers an error before its first step. -/
  | refuse (c : ℕ) (response : Response)
  /-- `message_loop`: a namespace is registered. -/
  | register (c : ℕ) (ns : String)
  /-- `message_loop`: the answer is sent, or not. -/
  | reply (c : ℕ) (sent : Bool)
  /-- `serve` returns. -/
  | leave (c : ℕ)
  /-- The task panics. -/
  | panic (c : ℕ)
  /-- A step of a worker. -/
  | work (a : QueueAction newV5 W)

variable {R : Type} [Field R] {newV5 : Uuid → List UInt8 → Uuid} {W : Type}

/-- `run`, once the socket is bound. -/
def Server.init (object : Slot → Option (List UInt8)) (vector : Slot → Option (VectorEntry R)) :
    Server R newV5 W where
  queue := .init object vector
  registry := ∅
  conn _ := .absent
  phase := .guarding
  clients := .new
  events := []
  expired := false
  late := false

/-- It is a read of the queue, by the supervisor. -/
def QueueAction.OfSupervisor : QueueAction newV5 W → Prop
  | .isEmpty k | .isDrained k _ => k = 0
  | _ => False

/-- It is a step of a worker. -/
def QueueAction.OfWorker : QueueAction newV5 W → Prop
  | .daemon a => a.conn = none
  | .enter _ | .leave _ => True
  | _ => False

/-- What `is_drained` answers with this read, if it is the last. -/
def QueueAction.answer : QueueAction newV5 W → Option Bool
  | .isDrained _ answer => some answer
  | _ => none

/-- Where the guard is, once it has the answer of `is_drained`. -/
def Phase.guarded : Option Bool → Phase
  | some answer => .selecting answer
  | none => .guarding

/-- Where the drain is, once it has the answer of `is_drained`. -/
def Phase.checked : Option Bool → Phase
  | some true => .drained
  | some false => .undrained
  | none => .draining

/-- `run`, with an event. The timer is reset when the last client is gone. -/
def Server.take (s : Server R newV5 W) (rest : List ClientEvent) :
    ClientEvent → Server R newV5 W
  | .connected =>
    { s with clients := s.clients.connected, events := rest, phase := .guarding }
  | .disconnected =>
    { s with
      clients := s.clients.disconnected.1
      expired := if s.clients.disconnected.2 then false else s.expired
      events := rest
      phase := .guarding }

/-- `events.send`. -/
def Server.send (s : Server R newV5 W) (e : ClientEvent) : Server R newV5 W :=
  if s.phase = .returned then s else { s with events := s.events ++ [e] }

/-- The task of connection `c` goes on to `x`. -/
def Server.toConn (s : Server R newV5 W) (c : ℕ) (x : Conn) : Server R newV5 W :=
  { s with conn := Function.update s.conn c x }

/-- The task of connection `c` ends, and its guard, if it has one, is dropped. -/
def Server.close (s : Server R newV5 W) (c : ℕ) : Server R newV5 W :=
  if (s.conn c).Guarded then (s.send .disconnected).toConn c .closed else s.toConn c .closed

variable [DecidableEq W] (config : Config) (capacity : ℕ)

/-- One step of the daemon. -/
inductive ServerStep : Server R newV5 W → ServerAction newV5 W → Server R newV5 W → Prop
  /-- `clients.is_idle()` is false, and the queue is not read. -/
  | busy {s : Server R newV5 W} :
      s.phase = .guarding → s.clients.isIdle = false →
        ServerStep s .busy { s with phase := .selecting false }
  /-- `clients.is_idle()` is true, and the queue is read. -/
  | guard {s : Server R newV5 W} {a : QueueAction newV5 W} {q : QueueState R newV5 W} :
      s.phase = .guarding → s.clients.isIdle = true → a.OfSupervisor →
        QueueStep capacity s.queue a q →
          ServerStep s (.check a) { s with queue := q, phase := .guarded a.answer }
  /-- `listener.accept()`. -/
  | accept {s : Server R newV5 W} {b : Bool} {c : ℕ} :
      s.phase = .selecting b → s.conn c = .absent →
        ServerStep s (.accept c) ({ s with phase := .guarding }.toConn c .greeting)
  /-- `listener.accept()` fails, and the loop goes on. -/
  | acceptFailed {s : Server R newV5 W} {b : Bool} :
      s.phase = .selecting b → ServerStep s .acceptFailed { s with phase := .guarding }
  /-- `events_rx.recv()`. -/
  | event {s : Server R newV5 W} {b : Bool} {e : ClientEvent} {rest : List ClientEvent} :
      s.phase = .selecting b → s.events = e :: rest → ServerStep s (.event e) (s.take rest e)
  /-- The idle timer. -/
  | idle {s : Server R newV5 W} :
      s.phase = .selecting true → s.expired = true →
        ServerStep s .idle { s with phase := .draining }
  /-- `sigterm.recv()`. -/
  | sigterm {s : Server R newV5 W} {b : Bool} :
      s.phase = .selecting b → ServerStep s .sigterm { s with phase := .draining }
  /-- `while !state.writer.is_drained()`. -/
  | drain {s : Server R newV5 W} {a : QueueAction newV5 W} {q : QueueState R newV5 W} :
      s.phase = .draining → a.OfSupervisor → QueueStep capacity s.queue a q →
        ServerStep s (.check a) { s with queue := q, phase := .checked a.answer }
  /-- `&& Instant::now() < deadline`. -/
  | sleep {s : Server R newV5 W} :
      s.phase = .undrained → s.late = false → ServerStep s .sleep { s with phase := .sleeping }
  /-- The loop goes on. -/
  | wake {s : Server R newV5 W} :
      s.phase = .sleeping → ServerStep s .wake { s with phase := .draining }
  /-- The loop ends at the deadline. -/
  | giveUp {s : Server R newV5 W} :
      s.phase = .undrained → s.late = true → ServerStep s .giveUp { s with phase := .returned }
  /-- The loop ends. -/
  | finish {s : Server R newV5 W} :
      s.phase = .drained → ServerStep s .finish { s with phase := .returned }
  /-- Time passes. -/
  | expire {s : Server R newV5 W} : ServerStep s .expire { s with expired := true }
  /-- Time passes. -/
  | deadline {s : Server R newV5 W} :
      s.phase.Exiting → ServerStep s .deadline { s with late := true }
  /-- The first frame, and the answer to it. -/
  | greet {s : Server R newV5 W} {c : ℕ} {frame : Frame} {sent : Bool} :
      s.conn c = .greeting →
        ServerStep s (.greet c frame sent) (s.toConn c (.greeted config frame sent))
  /-- The guard is made. -/
  | enter {s : Server R newV5 W} {c : ℕ} :
      s.conn c = .welcomed → ServerStep s (.enter c) ((s.send .connected).toConn c .waiting)
  /-- `framed.next()`. -/
  | receive {s : Server R newV5 W} {c : ℕ} {frame : Frame} :
      s.conn c = .waiting → ServerStep s (.receive c frame) (s.toConn c (.received config frame))
  /-- A handler's step, with more to do. -/
  | handle {s : Server R newV5 W} {c : ℕ} {r : Request} {a : Action newV5 W}
      {q : QueueState R newV5 W} :
      s.conn c = .handling r → a.conn = some c → Begins s.registry r a ∨ a.Continues →
        QueueStep capacity s.queue (.daemon a) q → q.daemon.handler c ≠ .idle →
          ServerStep s (.handle c a) { s with queue := q }
  /-- A handler's last step. -/
  | conclude {s : Server R newV5 W} {c : ℕ} {r : Request} {a : Action newV5 W}
      {q : QueueState R newV5 W} {response : Response} :
      s.conn c = .handling r → a.conn = some c → Begins s.registry r a ∨ a.Continues →
        QueueStep capacity s.queue (.daemon a) q → q.daemon.handler c = .idle →
          Concludes s.queue.daemon a response →
            ServerStep s (.handle c a) ({ s with queue := q }.toConn c (.replying response))
  /-- The namespace, the text of the request or a lock is not good. -/
  | refuse {s : Server R newV5 W} {c : ℕ} {r : Request} {e : ProtocolError} :
      s.conn c = .handling r → s.queue.daemon.handler c = .idle →
        Client.Answers s.registry r (.error e) →
          ServerStep s (.refuse c (.error e)) (s.toConn c (.replying (.error e)))
  /-- `handle_register`. -/
  | register {s : Server R newV5 W} {c : ℕ} {ns configJson : String} :
      s.conn c = .handling (.registerNamespace ns configJson) →
        ServerStep s (.register c ns)
          ({ s with registry := insert ns s.registry }.toConn c (.replying .registered))
  /-- `send`. -/
  | reply {s : Server R newV5 W} {c : ℕ} {response : Response} {sent : Bool} :
      s.conn c = .replying response →
        ServerStep s (.reply c sent) (s.toConn c (.replied response sent))
  /-- `message_loop` has returned, and the guard is dropped. -/
  | leave {s : Server R newV5 W} {c : ℕ} :
      s.conn c = .returning → ServerStep s (.leave c) (s.close c)
  /-- The task unwinds. -/
  | panic {s : Server R newV5 W} {c : ℕ} :
      s.conn c ≠ .absent → s.conn c ≠ .closed → ServerStep s (.panic c) (s.close c)
  /-- A worker. -/
  | work {s : Server R newV5 W} {a : QueueAction newV5 W} {q : QueueState R newV5 W} :
      a.OfWorker → QueueStep capacity s.queue a q → ServerStep s (.work a) { s with queue := q }

/-- The runs of the daemon, under a condition on their steps. -/
def ServerRun (ok : Guard (Server R newV5 W) (ServerAction newV5 W))
    (h : History (Server R newV5 W) (ServerAction newV5 W)) (s : Server R newV5 W) : Prop :=
  ∃ object vector, Run (ServerStep config capacity) (Server.init object vector) ok h s

/-- What is done to the queue. -/
def ServerAction.queue? : ServerAction newV5 W → Option (QueueAction newV5 W)
  | .check a => some a
  | .work a => some a
  | .handle _ a => some (.daemon a)
  | _ => none

/-- The steps of the queue. -/
def queueLog (h : History (Server R newV5 W) (ServerAction newV5 W)) :
    History (QueueState R newV5 W) (QueueAction newV5 W) :=
  h.project Server.queue ServerAction.queue?

section Sends

variable (s : Server R newV5 W) (c : ℕ) (x : Conn) (e : ClientEvent)

omit [DecidableEq W]

@[simp] theorem Server.toConn_queue : (s.toConn c x).queue = s.queue := rfl

@[simp] theorem Server.toConn_phase : (s.toConn c x).phase = s.phase := rfl

@[simp] theorem Server.toConn_clients : (s.toConn c x).clients = s.clients := rfl

@[simp] theorem Server.toConn_events : (s.toConn c x).events = s.events := rfl

@[simp] theorem Server.toConn_registry : (s.toConn c x).registry = s.registry := rfl

@[simp] theorem Server.toConn_conn : (s.toConn c x).conn = Function.update s.conn c x := rfl

@[simp] theorem Server.send_queue : (s.send e).queue = s.queue := by
  unfold Server.send
  split <;> rfl

@[simp] theorem Server.send_phase : (s.send e).phase = s.phase := by
  unfold Server.send
  split <;> rfl

@[simp] theorem Server.send_clients : (s.send e).clients = s.clients := by
  unfold Server.send
  split <;> rfl

@[simp] theorem Server.send_registry : (s.send e).registry = s.registry := by
  unfold Server.send
  split <;> rfl

@[simp] theorem Server.send_conn : (s.send e).conn = s.conn := by
  unfold Server.send
  split <;> rfl

theorem Server.send_events (h : s.phase ≠ .returned) : (s.send e).events = s.events ++ [e] := by
  simp [Server.send, h]

@[simp] theorem Server.close_queue : (s.close c).queue = s.queue := by
  unfold Server.close
  split <;> simp

@[simp] theorem Server.close_phase : (s.close c).phase = s.phase := by
  unfold Server.close
  split <;> simp

@[simp] theorem Server.close_clients : (s.close c).clients = s.clients := by
  unfold Server.close
  split <;> simp

@[simp] theorem Server.close_registry : (s.close c).registry = s.registry := by
  unfold Server.close
  split <;> simp

@[simp] theorem Server.close_conn : (s.close c).conn = Function.update s.conn c .closed := by
  unfold Server.close
  split <;> simp

@[simp] theorem Server.take_queue (rest : List ClientEvent) : (s.take rest e).queue = s.queue := by
  cases e <;> rfl

@[simp] theorem Server.take_conn (rest : List ClientEvent) : (s.take rest e).conn = s.conn := by
  cases e <;> rfl

@[simp] theorem Server.take_phase (rest : List ClientEvent) :
    (s.take rest e).phase = .guarding := by
  cases e <;> rfl

@[simp] theorem Server.take_events (rest : List ClientEvent) : (s.take rest e).events = rest := by
  cases e <;> rfl

end Sends

/-! ### What the supervisor does -/

section Supervision

omit [DecidableEq W]

/-- Where the supervisor goes next, with which count. -/
inductive Supervises (s : Server R newV5 W) : ServerAction newV5 W → Phase → Clients → Prop
  /-- It enters `select!` with a client counted. -/
  | busy : s.phase = .guarding → s.clients.isIdle = false →
      Supervises s .busy (.selecting false) s.clients
  /-- It enters `select!` with none. -/
  | guard {b : Bool} : s.phase = .guarding → s.clients.isIdle = true →
      Supervises s (.check (.isDrained 0 b)) (.selecting b) s.clients
  /-- A branch of `select!` fires, and the loop goes on. -/
  | resume {b : Bool} {a : ServerAction newV5 W} {clients : Clients} :
      s.phase = .selecting b → Supervises s a .guarding clients
  /-- The loop is left. -/
  | exit {b : Bool} {a : ServerAction newV5 W} :
      s.phase = .selecting b → Supervises s a .draining s.clients
  /-- The drain has its yes. -/
  | drained : s.phase = .draining →
      Supervises s (.check (.isDrained 0 true)) .drained s.clients
  /-- The drain has a no. -/
  | undrained : s.phase = .draining →
      Supervises s (.check (.isDrained 0 false)) .undrained s.clients
  /-- It waits. -/
  | sleep : s.phase = .undrained → Supervises s .sleep .sleeping s.clients
  /-- It asks again. -/
  | wake : s.phase = .sleeping → Supervises s .wake .draining s.clients
  /-- It returns at the deadline. -/
  | giveUp : s.phase = .undrained → s.late = true → Supervises s .giveUp .returned s.clients
  /-- It returns. -/
  | finish : s.phase = .drained → Supervises s .finish .returned s.clients

end Supervision

/-- **What a step does to the supervisor**: nothing, or what the supervisor does next. -/
theorem phase_step {config : Config} {capacity : ℕ} {s s' : Server R newV5 W}
    {a : ServerAction newV5 W} (hstep : ServerStep config capacity s a s') :
    (s'.phase = s.phase ∧ s'.clients = s.clients) ∨ Supervises s a s'.phase s'.clients := by
  cases hstep with
  | busy hp hbusy => exact .inr (.busy hp hbusy)
  | @guard a _ hp hidle ha _ =>
    cases a with
    | isDrained k answer =>
      obtain rfl : k = 0 := ha
      exact .inr (.guard hp hidle)
    | _ => exact .inl ⟨hp.symm, rfl⟩
  | accept hp _ | acceptFailed hp => exact .inr (.resume hp)
  | event hp _ => exact .inr (by simpa using .resume hp)
  | idle hp _ | sigterm hp => exact .inr (.exit hp)
  | @drain a _ hp ha _ =>
    cases a with
    | isDrained k answer =>
      obtain rfl : k = 0 := ha
      cases answer with
      | true => exact .inr (.drained hp)
      | false => exact .inr (.undrained hp)
    | _ => exact .inl ⟨hp.symm, rfl⟩
  | sleep hp _ => exact .inr (.sleep hp)
  | wake hp => exact .inr (.wake hp)
  | giveUp hp hlate => exact .inr (.giveUp hp hlate)
  | finish hp => exact .inr (.finish hp)
  | enter _ | leave _ | panic _ _ => exact .inl ⟨by simp, by simp⟩
  | _ => exact .inl ⟨rfl, rfl⟩

end Semisweet.Daemon
