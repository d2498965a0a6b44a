import Semisweet.Foundations.Runs
import Semisweet.Protocol.Messages

/-!
# The client's connection

One client object and the daemon at the other end of its connection: `connect` and
`round_trip` of `src/python.rs`, `ClientStub::request` and `reconnect` of
`src/client/stub.rs`, and `message_loop` and `resolve` of `src/daemon/conn.rs`.

The client connects once, and registers its namespace before it keeps the connection; after
that a request is one frame sent and one frame received, with the connection held by a
mutex. On a transient drop the request is sent again, once, on a new connection. The daemon
answers the frames of a connection one at a time, in the order they come.

## The model

A request's future may be dropped at any await point. The connection outlives it, with
whatever is in its buffers, unless it was still being set up: then the stub is dropped with
the future. Frames are numbered with the request they belong to; the numbers are not on the
wire, and no step looks at them.

* Sending is `feed` (the frame is put in the write buffer), `write` (one frame of the buffer
  is on the wire) and `flushed` (the buffer is empty); receiving is `receive` or `eof`.
* A connection the daemon has closed takes no more bytes, but what it sent before can still
  be read.
* The daemon may drop the connection, and it may terminate; the next one starts with no
  namespace registered. Other clients register namespaces too.
* A request the daemon is still answering on a connection the client has left is not
  followed further, except that it may register a namespace (`otherRegister`).
-/

namespace Semisweet.Client

open Semisweet.Core Semisweet.Foundations Semisweet.Protocol

/-! ### The daemon's answers -/

/-- What `Get`, `Set` and `Del` name. -/
structure Target where
  /-- The namespace. -/
  ns : String
  /-- The query. -/
  query : String
  /-- The keys. -/
  keys : List String
  /-- The context. -/
  context : Option String

/-- What a request names, if it is a `Get`, a `Set` or a `Del`. -/
def target : Request → Option Target
  | .get ns query keys context => some ⟨ns, query, keys, context⟩
  | .set ns query keys context _ => some ⟨ns, query, keys, context⟩
  | .del ns query keys context => some ⟨ns, query, keys, context⟩
  | _ => none

/-- The errors the handlers come by: every one but `NamespaceMissing`, which nothing in the
daemon constructs. -/
def Raised (e : Error) : Prop := ∀ ns, e ≠ .namespaceMissing ns

/-- What `message_loop` answers to a request, with these namespaces registered. -/
inductive Answers (registry : Finset String) : Request → Response → Prop
  /-- `Ping`. -/
  | ping : Answers registry .ping .pong
  /-- `Bye`. -/
  | bye : Answers registry .bye .goodbye
  /-- `Hello` again, in the daemon's version. -/
  | hello {client : ClientId} {pid : UInt32} {daemonVersion : String} :
      Answers registry (.hello client protocolVersion pid) (.welcome daemonVersion protocolVersion)
  /-- `Hello` again, in another version. -/
  | helloMismatch {client : ClientId} {protocol pid : UInt32} :
      protocol ≠ protocolVersion →
        Answers registry (.hello client protocol pid)
          (.error (.versionMismatch protocol protocolVersion))
  /-- `RegisterNamespace`: it is registered, or it is built. -/
  | registered {ns configJson : String} :
      Answers registry (.registerNamespace ns configJson) .registered
  /-- `RegisterNamespace`: its configuration is not valid. -/
  | registerInvalid {ns configJson message : String} :
      ns ∉ registry → Answers registry (.registerNamespace ns configJson)
        (.error (.invalidRequest (s!"invalid namespace config: " ++ message)))
  /-- `RegisterNamespace`: it does not build. -/
  | registerFailed {ns configJson : String} {e : Error} :
      ns ∉ registry → Raised e →
        Answers registry (.registerNamespace ns configJson) (backendError e)
  /-- `resolve` finds no such namespace. -/
  | unknown {r : Request} {t : Target} :
      target r = some t → t.ns ∉ registry → Answers registry r (.error (.unknownNamespace t.ns))
  /-- `reconstruct` refuses the text of the request. -/
  | invalid {r : Request} {t : Target} {e : Response} :
      target r = some t → t.ns ∈ registry → reconstruct t.query t.keys t.context = .error e →
        Answers registry r e
  /-- The cache, the shadow or the pool fails. -/
  | failed {r : Request} {t : Target} {parts : Parts} {e : Error} :
      target r = some t → t.ns ∈ registry →
        reconstruct t.query t.keys t.context = .ok parts → Raised e →
        Answers registry r (backendError e)
  /-- `Get`. -/
  | value {ns query : String} {keys : List String} {context : Option String} {parts : Parts}
      {value : Option (List UInt8)} :
      ns ∈ registry → reconstruct query keys context = .ok parts →
        Answers registry (.get ns query keys context) (.value value)
  /-- `Set`. -/
  | accepted {ns query : String} {keys : List String} {context : Option String} {value : List UInt8}
      {parts : Parts} {accepted : Bool} :
      ns ∈ registry → reconstruct query keys context = .ok parts →
        Answers registry (.set ns query keys context value) (.accepted accepted)
  /-- `Del`. -/
  | deleted {ns query : String} {keys : List String} {context : Option String} {parts : Parts}
      {deleted : Bool} :
      ns ∈ registry → reconstruct query keys context = .ok parts →
        Answers registry (.del ns query keys context) (.deleted deleted)

/-- The namespaces registered once a request is answered. -/
def register (registry : Finset String) : Request → Response → Finset String
  | .registerNamespace ns _, .registered => insert ns registry
  | _, _ => registry

/-! ### The two ends -/

/-- A connection: the client's write buffer, and what is on the wire each way, each frame with
the number of the request it belongs to. -/
structure Conn where
  /-- The frames in the client's write buffer. -/
  buffer : List (ℕ × Request)
  /-- The frames on the way to the daemon. -/
  toDaemon : List (ℕ × Request)
  /-- The frames on the way to the client. -/
  toClient : List (ℕ × Response)
  /-- Whether the daemon has the connection open. -/
  live : Bool

/-- A new connection, once the handshake is done. -/
def Conn.fresh : Conn := ⟨[], [], [], true⟩

/-- No connection. -/
def Conn.dead : Conn := ⟨[], [], [], false⟩

/-- The daemon closes the connection: it reads nothing more. -/
def Conn.hangUp (c : Conn) : Conn := { c with toDaemon := [], live := false }

/-- Nothing is left on the connection. -/
def Conn.Quiet (c : Conn) : Prop := c.buffer = [] ∧ c.toDaemon = [] ∧ c.toClient = []

/-- Where `ClientStub::request` is, for which request, and whether it has reconnected. -/
inductive Phase where
  /-- No request is being made. -/
  | idle
  /-- Before its frame is in the write buffer. -/
  | feeding (n : ℕ) (r : Request) (retried : Bool)
  /-- Its frame is in the write buffer or on the wire. -/
  | flushing (n : ℕ) (r : Request) (retried : Bool)
  /-- The write buffer is empty, and a frame is awaited. -/
  | awaiting (n : ℕ) (r : Request) (retried : Bool)
  /-- The connection dropped, and a new one is being made. -/
  | reconnecting (n : ℕ) (r : Request)

/-- The client and the daemon. -/
structure State where
  /-- Whether the cell holds the connection. -/
  ready : Bool
  /-- The request being made. -/
  phase : Phase
  /-- The connection. -/
  conn : Conn
  /-- The namespaces the daemon has registered. -/
  registry : Finset String
  /-- How many requests were made. -/
  next : ℕ

/-- Nothing is connected, and nothing registered. -/
def State.init : State := ⟨false, .idle, .dead, ∅, 0⟩

/-- The request's future ends. Unless the cell holds the connection, the stub is dropped. -/
def State.settle (s : State) : State :=
  { s with phase := .idle, conn := if s.ready then s.conn else .dead }

/-- The request fails with a transient drop: reconnect, or give up the second time. -/
def State.lost (s : State) (n : ℕ) (r : Request) (retried : Bool) : State :=
  if retried then s.settle else { s with phase := .reconnecting n r }

/-- The request returns a response. The first `Registered` fills the cell. -/
def State.finish (s : State) (resp : Response) : State :=
  State.settle { s with ready := s.ready || decide (resp = Response.registered) }

@[simp] theorem State.settle_registry (s : State) : s.settle.registry = s.registry := rfl

@[simp] theorem State.finish_registry (s : State) (resp : Response) :
    (s.finish resp).registry = s.registry := rfl

@[simp] theorem State.lost_registry (s : State) (n : ℕ) (r : Request) (retried : Bool) :
    (s.lost n r retried).registry = s.registry := by
  cases retried <;> rfl

/-- What is done. -/
inductive Action where
  /-- `get_or_try_init` connects, and makes the request that registers the namespace. -/
  | connect
  /-- A request is made. -/
  | issue (r : Request)
  /-- The request's frame is put in the write buffer. -/
  | feed
  /-- A frame of the write buffer is on the wire. -/
  | write
  /-- The write buffer is empty. -/
  | flushed
  /-- The connection does not take the bytes. -/
  | sendFail
  /-- A frame is received, and returned: the answer to request `m`. -/
  | receive (m : ℕ) (resp : Response)
  /-- The end of the stream is received. -/
  | eof
  /-- A new connection is made, and the request is sent again. -/
  | reconnect
  /-- No new connection is made. -/
  | reconnectFail
  /-- The request's future is dropped. -/
  | cancel
  /-- The daemon answers request `n`. -/
  | serve (n : ℕ) (r : Request) (resp : Response)
  /-- The namespace is registered over another connection. -/
  | otherRegister (ns : String)
  /-- The daemon closes the connection. -/
  | drop
  /-- The daemon terminates; the next one starts with no namespace. -/
  | terminate

variable (ns configJson : String)

/-- One step of the client or the daemon. -/
inductive Step : State → Action → State → Prop
  /-- The cell is empty. -/
  | connect {s : State} :
      s.phase = .idle → s.ready = false → Step s .connect
        { s with phase := .feeding s.next (.registerNamespace ns configJson) false
                 conn := .fresh, next := s.next + 1 }
  /-- The cell holds the connection, and the mutex is free. -/
  | issue {s : State} {r : Request} :
      s.phase = .idle → s.ready = true → Step s (.issue r)
        { s with phase := .feeding s.next r false, next := s.next + 1 }
  /-- `feed`. -/
  | feed {s : State} {n : ℕ} {r : Request} {retried : Bool} :
      s.phase = .feeding n r retried → Step s .feed
        { s with phase := .flushing n r retried
                 conn := { s.conn with buffer := s.conn.buffer ++ [(n, r)] } }
  /-- The buffer is written while a request makes room in it, or flushes it. -/
  | write {s : State} {f : ℕ × Request} {rest : List (ℕ × Request)} {n : ℕ} {r : Request}
      {retried : Bool} :
      s.phase = .feeding n r retried ∨ s.phase = .flushing n r retried → s.conn.live = true →
        s.conn.buffer = f :: rest → Step s .write
          { s with conn := { s.conn with buffer := rest, toDaemon := s.conn.toDaemon ++ [f] } }
  /-- The flush is done. -/
  | flushed {s : State} {n : ℕ} {r : Request} {retried : Bool} :
      s.phase = .flushing n r retried → s.conn.buffer = [] → Step s .flushed
        { s with phase := .awaiting n r retried }
  /-- The flush fails. -/
  | sendFail {s : State} {n : ℕ} {r : Request} {retried : Bool} :
      s.phase = .feeding n r retried ∨ s.phase = .flushing n r retried → s.conn.live = false →
        Step s .sendFail (s.lost n r retried)
  /-- `recv_frame` returns the next frame, whichever request it answers. -/
  | receive {s : State} {n m : ℕ} {r : Request} {retried : Bool} {resp : Response}
      {rest : List (ℕ × Response)} :
      s.phase = .awaiting n r retried → s.conn.toClient = (m, resp) :: rest →
        Step s (.receive m resp)
        (State.finish { s with conn := { s.conn with toClient := rest } } resp)
  /-- `recv_frame` fails. -/
  | eof {s : State} {n : ℕ} {r : Request} {retried : Bool} :
      s.phase = .awaiting n r retried → s.conn.toClient = [] → s.conn.live = false →
        Step s .eof (s.lost n r retried)
  /-- `reconnect` succeeds. -/
  | reconnect {s : State} {n : ℕ} {r : Request} :
      s.phase = .reconnecting n r →
        Step s .reconnect { s with phase := .feeding n r true, conn := .fresh }
  /-- `reconnect` fails, and leaves the connection as it was. -/
  | reconnectFail {s : State} {n : ℕ} {r : Request} :
      s.phase = .reconnecting n r → Step s .reconnectFail s.settle
  /-- At any await point. -/
  | cancel {s : State} : s.phase ≠ .idle → Step s .cancel s.settle
  /-- `message_loop`; it returns after `Bye`. -/
  | serve {s : State} {n : ℕ} {r : Request} {resp : Response} {rest : List (ℕ × Request)} :
      s.conn.live = true → s.conn.toDaemon = (n, r) :: rest → Answers s.registry r resp →
        Step s (.serve n r resp)
          { s with conn := { s.conn with toDaemon := rest
                                         toClient := s.conn.toClient ++ [(n, resp)]
                                         live := decide (r ≠ .bye) }
                   registry := register s.registry r resp }
  /-- Somebody else's registration. -/
  | otherRegister {s : State} {ns : String} :
      Step s (.otherRegister ns) { s with registry := insert ns s.registry }
  /-- The connection's task ends. -/
  | drop {s : State} : Step s .drop { s with conn := s.conn.hangUp }
  /-- The process ends. -/
  | terminate {s : State} : Step s .terminate { s with conn := s.conn.hangUp, registry := ∅ }

/-- The runs of a client of the namespace, under a condition on their steps. -/
abbrev ClientRun (ok : Guard State Action) : History State Action → State → Prop :=
  Run (Step ns configJson) State.init ok

/-- The cell holds a connection with nothing on it, and the namespace is registered. -/
def State.connected : State := ⟨true, .idle, .fresh, {ns}, 1⟩

variable {ns configJson}

/-- Connecting, when all goes well, leads there. -/
theorem connecting_run {ok : Guard State Action}
    (hok : ∀ h s a, a ≠ .cancel → (∀ n r e, a ≠ .serve n r (.error e)) → ok h s a) :
    ∃ h, ClientRun ns configJson ok h (State.connected ns) := by
  have hstart : ClientRun ns configJson ok [] State.init := .start
  have hconnect := hstart.next (hok _ _ .connect (by simp) (by simp)) (.connect rfl rfl)
  have hfeed := hconnect.next (hok _ _ .feed (by simp) (by simp)) (.feed rfl)
  have hwrite := hfeed.next (hok _ _ .write (by simp) (by simp)) (.write (.inr rfl) rfl rfl)
  have hflushed := hwrite.next (hok _ _ .flushed (by simp) (by simp)) (.flushed rfl rfl)
  have hserve := hflushed.next (hok _ _ (.serve 0 _ .registered) (by simp) (by simp))
    (.serve rfl rfl .registered)
  exact ⟨_, hserve.next (hok _ _ (.receive 0 .registered) (by simp) (by simp)) (.receive rfl rfl)⟩

/-- The same, under a condition that may only refuse dropped futures. -/
theorem connected_run {ok : Guard State Action} (hok : ∀ h s a, a ≠ .cancel → ok h s a) :
    ∃ h, ClientRun ns configJson ok h (State.connected ns) :=
  connecting_run fun h s a ha _ => hok h s a ha

namespace Sample

/-- A namespace. -/
def prod : String := "prod"

/-- A configuration of it: all of it local. -/
def config : String :=
  "\x7b\"embedding\":\x7b\"kind\":\"local\"\x7d,\"entity\":\x7b\"kind\":\"keyword\"\x7d," ++
    "\"vector\":\x7b\"kind\":\"memory\"\x7d,\"object\":\x7b\"kind\":\"disk\"\x7d\x7d"

/-- Look a query up in the namespace. -/
def ask (query : String) : Request := .get prod query [] none

theorem answers_ask (value : Option (List UInt8)) : Answers {prod} (ask "a") (.value value) :=
  .value (by decide)
    (show reconstruct "a" [] none = .ok ⟨⟨⟨"a", by decide, by decide⟩⟩, ∅, none⟩ from rfl)

/-- Ask, up to the point where an answer is awaited. -/
theorem ask_run {ok : Guard State Action} {h : History State Action} {next : ℕ}
    {toDaemon : List (ℕ × Request)} (query : String) (hok : ∀ h s a, a ≠ .cancel → ok h s a)
    (hrun : ClientRun prod config ok h ⟨true, .idle, ⟨[], toDaemon, [], true⟩, {prod}, next⟩) :
    ∃ h', ClientRun prod config ok h' ⟨true, .awaiting next (ask query) false,
      ⟨[], toDaemon ++ [(next, ask query)], [], true⟩, {prod}, next + 1⟩ := by
  have hissue := hrun.next (hok _ _ (.issue (ask query)) (by simp)) (.issue rfl rfl)
  have hfeed := hissue.next (hok _ _ .feed (by simp)) (.feed rfl)
  have hwrite := hfeed.next (hok _ _ .write (by simp)) (.write (.inr rfl) rfl rfl)
  exact ⟨_, hwrite.next (hok _ _ .flushed (by simp)) (.flushed rfl rfl)⟩

end Sample

end Semisweet.Client
