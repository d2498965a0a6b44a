import Semisweet.Client.Stub
import Semisweet.Daemon.WriteQueue

/-!
# A connection's task

`serve` (`src/daemon/conn.rs`), the task of one accepted connection. The first frame must be
a `Hello` of the daemon's protocol; the task then has a `ConnectionGuard`, and answers the
frames that follow one at a time until the stream ends, a frame does not decode, a `Bye`, or
an answer that cannot be sent.

A request of a namespace is handled by steps on the daemon's shadow buffers, queue and
stores (`WriteBehind`); `Begins` says which request a handler's first step is for, and
`Concludes` what it answers with its last.
-/

namespace Semisweet.Daemon

open Semisweet.Core Semisweet.Foundations Semisweet.Protocol

/-- What of the daemon's `Config` a connection is given. -/
structure Config where
  /-- The daemon's version. -/
  daemonVersion : String
  /-- The daemon's protocol. -/
  protocol : UInt32

/-- What `framed.next()` yields. -/
inductive Frame where
  /-- The end of the stream. -/
  | eof
  /-- An error of the stream or of the codec. -/
  | broken
  /-- A frame, and what `protocol::decode` makes of it. -/
  | frame (request : Option Request)

/-- Where a connection's task is. -/
inductive Conn where
  /-- It is not accepted yet. -/
  | absent
  /-- In `handshake`, before the first frame. -/
  | greeting
  /-- `Welcome` is sent, and the guard is not made yet. -/
  | welcomed
  /-- In `message_loop`, before a frame. -/
  | waiting
  /-- In `message_loop`, with a request of a namespace. -/
  | handling (request : Request)
  /-- In `message_loop`, with an answer to send. -/
  | replying (response : Response)
  /-- `message_loop` has returned. -/
  | returning
  /-- The task has ended. -/
  | closed
  deriving DecidableEq

/-- The task has its `ConnectionGuard`. -/
def Conn.Guarded : Conn → Prop
  | .waiting | .handling _ | .replying _ | .returning => True
  | _ => False

instance : DecidablePred Conn.Guarded
  | .waiting | .handling _ | .replying _ | .returning => isTrue trivial
  | .absent | .greeting | .welcomed | .closed => isFalse id

/-- The client has its `Welcome`, and the task has not ended. -/
def Conn.Served (c : Conn) : Prop := c = .welcomed ∨ c.Guarded

section Frames

variable (config : Config)

/-- `welcome`. -/
def welcome : Response := .welcome config.daemonVersion config.protocol

/-- `handshake`: what it sends, and what it returns once that is sent. -/
def handshake : Frame → Option Response × Bool
  | .frame (some (.hello _ clientProtocol _)) =>
    if clientProtocol ≠ config.protocol then
      (some (.error (.versionMismatch clientProtocol config.protocol)), false)
    else (some (welcome config), true)
  | _ => (none, false)

/-- The task once the first frame is there and what `handshake` sends is sent, or not. -/
def Conn.greeted (frame : Frame) (sent : Bool) : Conn :=
  if (handshake config frame).2 && sent then .welcomed else .closed

/-- `message_loop`, with the next frame. -/
def Conn.received : Frame → Conn
  | .frame (some request) =>
    match request with
    | .ping => .replying .pong
    | .bye => .replying .goodbye
    | .hello _ clientProtocol _ =>
      .replying (if clientProtocol = config.protocol then welcome config
        else .error (.versionMismatch clientProtocol config.protocol))
    | request => .handling request
  | _ => .returning

/-- `message_loop`, once the answer is sent, or not. It returns after `Goodbye`. -/
def Conn.replied (response : Response) (sent : Bool) : Conn :=
  if sent && decide (response ≠ .goodbye) then .waiting else .returning

/-- Only a `Hello` of the daemon's protocol is welcomed. -/
theorem Conn.greeted_eq_welcomed {frame : Frame} {sent : Bool}
    (h : Conn.greeted config frame sent = .welcomed) :
    sent = true ∧ ∃ client pid, frame = .frame (some (.hello client config.protocol pid)) := by
  unfold Conn.greeted at h
  split at h
  · rename_i hb
    rw [Bool.and_eq_true] at hb
    refine ⟨hb.2, ?_⟩
    unfold handshake at hb
    split at hb
    · rename_i client p pid
      split at hb
      · cases hb.1
      · rename_i hp
        exact ⟨client, pid, by rw [not_ne_iff.mp hp]⟩
    · cases hb.1
  · cases h

/-- A handshake gives no guard. -/
theorem Conn.not_guarded_greeted {frame : Frame} {sent : Bool} :
    ¬ (Conn.greeted config frame sent).Guarded := by
  unfold Conn.greeted
  split <;> exact id

/-- Within `message_loop` the guard is kept. -/
theorem Conn.guarded_received (frame : Frame) : (Conn.received config frame).Guarded := by
  unfold Conn.received
  split
  · split <;> trivial
  · trivial

omit config in
theorem Conn.guarded_replied (response : Response) (sent : Bool) :
    (Conn.replied response sent).Guarded := by
  unfold Conn.replied
  split <;> trivial

end Frames

/-! ### Requests and the steps of their handlers -/

variable {R : Type} [Field R] {newV5 : Uuid → List UInt8 → Uuid} {W : Type}

/-- The connection whose handler takes this step. -/
def Action.conn : Action newV5 W → Option ℕ
  | .set c _ | .push c _ | .reject c _ | .unshadow c _ | .getHit c _ _ | .getMiss c _
  | .getFind c _ | .getLoad c | .del c _ | .delFind c _ | .delVector c _ _ | .delObject c _ _ =>
    some c
  | _ => none

/-- It is a later step of a handler. -/
def Action.Continues : Action newV5 W → Prop
  | .push _ _ | .reject _ _ | .unshadow _ _ | .getFind _ _ | .getLoad _ | .delFind _ _
  | .delVector _ _ _ | .delObject _ _ _ => True
  | _ => False

/-- The request a handler's first step is for, with these namespaces registered. -/
inductive Begins (registry : Finset String) : Request → Action newV5 W → Prop
  /-- `handle_set`. -/
  | set {ns query : String} {keys : List String} {context : Option String} {value : List UInt8}
      {c : ℕ} {job : WriteJob newV5} :
      ns ∈ registry → Namespace.new ns = .ok job.ns →
        reconstruct query keys context = .ok job.parts → job.value.bytes = value →
          Begins registry (.set ns query keys context value) (.set c job)
  /-- `handle_get`, with a shadow. -/
  | getHit {ns query : String} {keys : List String} {context : Option String} {c : ℕ}
      {name : Namespace} {parts : Parts} {value : Arc} :
      ns ∈ registry → Namespace.new ns = .ok name → reconstruct query keys context = .ok parts →
        Begins registry (.get ns query keys context)
          (.getHit c (name, EntryId.derive newV5 parts) value)
  /-- `handle_get`, without. -/
  | getMiss {ns query : String} {keys : List String} {context : Option String} {c : ℕ}
      {name : Namespace} {parts : Parts} :
      ns ∈ registry → Namespace.new ns = .ok name → reconstruct query keys context = .ok parts →
        Begins registry (.get ns query keys context) (.getMiss c (name, EntryId.derive newV5 parts))
  /-- `handle_del`. -/
  | del {ns query : String} {keys : List String} {context : Option String} {c : ℕ}
      {name : Namespace} {parts : Parts} :
      ns ∈ registry → Namespace.new ns = .ok name → reconstruct query keys context = .ok parts →
        Begins registry (.del ns query keys context) (.del c (name, EntryId.derive newV5 parts))

/-- What a handler answers with its last step, taken in the state `s`. -/
inductive Concludes (s : State R newV5 W) : Action newV5 W → Response → Prop
  /-- `handle_set`: the queue took the job. -/
  | accepted {c : ℕ} {job : WriteJob newV5} : Concludes s (.push c job) (.accepted true)
  /-- `handle_set`: the queue was full. -/
  | rejected {c : ℕ} {job : WriteJob newV5} : Concludes s (.unshadow c job) (.accepted false)
  /-- `handle_get`: the shadow. -/
  | shadow {c : ℕ} {slot : Slot} {value : Arc} :
      Concludes s (.getHit c slot value) (.value (some value.bytes))
  /-- `handle_get`: nothing matches. -/
  | miss {c : ℕ} : Concludes s (.getFind c none) (.value none)
  /-- `handle_get`: the search fails. -/
  | searchFailed {c : ℕ} {e : Error} : Concludes s (.getFind c none) (backendError e)
  /-- `handle_get`: the payload of the match. -/
  | loaded {c : ℕ} {slot : Slot} :
      s.handler c = .loading slot → Concludes s (.getLoad c) (.value (s.object slot))
  /-- `handle_get`: the object store fails. -/
  | loadFailed {c : ℕ} {e : Error} : Concludes s (.getLoad c) (backendError e)
  /-- `handle_del`: nothing matches. -/
  | unmatched {c : ℕ} {slot : Slot} {removed : Bool} :
      s.handler c = .deleting slot removed → Concludes s (.delFind c none) (.deleted removed)
  /-- `handle_del`: the search fails. -/
  | matchFailed {c : ℕ} {e : Error} : Concludes s (.delFind c none) (backendError e)
  /-- `handle_del`: the vector store fails. -/
  | unindexFailed {c : ℕ} {slot : Slot} {outcome : Outcome} {e : Error} :
      outcome ≠ .ok → Concludes s (.delVector c slot outcome) (backendError e)
  /-- `handle_del`: the match is removed. -/
  | deleted {c : ℕ} {slot : Slot} : Concludes s (.delObject c slot .ok) (.deleted true)
  /-- `handle_del`: the object store fails. -/
  | unstoreFailed {c : ℕ} {slot : Slot} {outcome : Outcome} {e : Error} :
      outcome ≠ .ok → Concludes s (.delObject c slot outcome) (backendError e)

end Semisweet.Daemon
