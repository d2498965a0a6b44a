import Semisweet.Core.Newtype
import Semisweet.Foundations.Loops

/-!
# The messages

The requests and responses of the daemon protocol (`src/protocol.rs`), and the two
functions between them and the validated values (`src/daemon/conn.rs`): `reconstruct`, which
validates the text of a request, and `backend_error`, which turns an error into a response.

Messages carry plain text. A request names a lookup by a query, a list of keys and an
optional context; `reconstruct` trims each of them, refuses blank ones, and collects the
keys into a set.
-/

namespace Semisweet.Protocol

open Semisweet.Core Semisweet.Foundations

/-- `PROTOCOL_VERSION`. -/
def protocolVersion : UInt32 := 1

/-- `ClientId`. -/
structure ClientId where
  /-- A random UUID. -/
  uuid : Uuid
  deriving DecidableEq

/-- `Request`. -/
inductive Request where
  /-- The first message of a connection. -/
  | hello (client : ClientId) (protocol pid : UInt32)
  /-- Build the namespace's cache, unless it is there. -/
  | registerNamespace (ns configJson : String)
  /-- Look a query up. -/
  | get (ns query : String) (keys : List String) (context : Option String)
  /-- Store a payload under a query. -/
  | set (ns query : String) (keys : List String) (context : Option String) (value : List UInt8)
  /-- Remove what a query matches. -/
  | del (ns query : String) (keys : List String) (context : Option String)
  /-- Is anybody there? -/
  | ping
  /-- The last message of a connection. -/
  | bye
  deriving DecidableEq

/-- `ProtocolError`. -/
inductive ProtocolError where
  /-- The two ends speak different versions. -/
  | versionMismatch (client daemon : UInt32)
  /-- The namespace is not registered. -/
  | unknownNamespace (ns : String)
  /-- The request is not valid. -/
  | invalidRequest (message : String)
  /-- A backend failed. -/
  | backendInit (message : String)
  deriving DecidableEq

/-- `Response`. -/
inductive Response where
  /-- To `Hello`. -/
  | welcome (daemonVersion : String) (protocol : UInt32)
  /-- To `RegisterNamespace`. -/
  | registered
  /-- To `Get`: a hit or a miss. -/
  | value (value : Option (List UInt8))
  /-- To `Set`: whether the write was queued. -/
  | accepted (accepted : Bool)
  /-- To `Del`: whether anything was removed. -/
  | deleted (deleted : Bool)
  /-- To `Ping`. -/
  | pong
  /-- To `Bye`. -/
  | goodbye
  /-- To any request. -/
  | error (error : ProtocolError)
  deriving DecidableEq

/-- `invalid_request`. -/
def invalidRequest (error : Error) : Response := .error (.invalidRequest error.message)

/-- `backend_error`. -/
def backendError (error : Error) : Response :=
  .error <|
    match error with
    | .emptyQuery | .emptyContext | .emptyKey | .emptyEntity | .emptyNamespace | .invalidNamespace _
    | .emptyEmbedding | .zeroEmbedding | .nonFiniteEmbedding | .dimMismatch _ _ | .missingEnv _
    | .unknownBackend _ | .invalidConfig _ => .invalidRequest error.message
    | .namespaceMissing ns => .unknownNamespace ns
    | .protocolVersionMismatch client own => .versionMismatch client own
    | .entityExtraction _ | .embedding _ | .vectorStorage _ | .objectStorage _ | .compression _
    | .daemonShutdown | .daemon _ | .io _ | .codec => .backendInit error.message

theorem exists_backendError (error : Error) : ∃ e, backendError error = .error e := ⟨_, rfl⟩

/-- The key set `reconstruct` collects. -/
def keySet (keys : List String) : Except Response (Finset Key) :=
  keys.foldlM (fun set key => do
    let key ← (Key.new key).mapError invalidRequest
    .ok (insert key set)) ∅

/-- `reconstruct`. -/
def reconstruct (query : String) (keys : List String) (context : Option String) :
    Except Response Parts := do
  let query ← (QueryText.new query).mapError invalidRequest
  let keys ← keySet keys
  let context ← (context.mapM Context.new).mapError invalidRequest
  .ok ⟨query, keys, context⟩

theorem mapError_eq_ok {ε ε' α : Type} {f : ε → ε'} {x : Except ε α} {a : α} :
    x.mapError f = .ok a ↔ x = .ok a := by
  cases x <;> simp [Except.mapError]

/-- What a key is made of, and that it is made of nothing else. -/
theorem key_new_eq_ok {value : String} {key : Key} :
    Key.new value = .ok key ↔ key.asStr = trim value := by
  obtain ⟨t⟩ := key
  have : Key.new value = .ok ⟨t⟩ ↔ NonBlank.new .emptyKey value = .ok t := by
    unfold Key.new
    cases NonBlank.new .emptyKey value <;> simp
  rw [this, NonBlank.new_eq_ok_iff]
  rfl

/-- The keys that are collected are the trimmed texts. -/
theorem keySet_eq_ok {keys : List String} {set : Finset Key} (h : keySet keys = .ok set) :
    set.image Key.asStr = (keys.map trim).toFinset := by
  let Collected (before : List String) (set : Finset Key) :=
    set.image Key.asStr = (before.map trim).toFinset
  refine foldlM_eq_ok_inv (I := Collected) (fun before value set next hset hnext => ?_) [] rfl h
  simp only [bind_eq_ok, mapError_eq_ok, Except.ok.injEq, key_new_eq_ok] at hnext
  obtain ⟨key, hkey, rfl⟩ := hnext
  simp only [Collected, Finset.image_insert, hkey, hset, List.map_append, List.toFinset_append,
    List.map_cons, List.map_nil, List.toFinset_cons, List.toFinset_nil, Finset.union_insert,
    Finset.union_empty]

/-- **The keys of a reconstructed lookup** are those of the request, trimmed. -/
theorem keys_of_reconstruct {query : String} {keys : List String} {context : Option String}
    {parts : Parts} (h : reconstruct query keys context = .ok parts) :
    parts.keys.image Key.asStr = (keys.map trim).toFinset := by
  simp only [reconstruct, bind_eq_ok, Except.ok.injEq] at h
  obtain ⟨-, -, set, hset, -, -, rfl⟩ := h
  exact keySet_eq_ok hset

/-- What is mapped from an error is an error. -/
theorem mapError_eq_error {ε ε' α : Type} {f : ε → ε'} {x : Except ε α} {e : ε'}
    (h : x.mapError f = .error e) :
    ∃ e', e = f e' := by
  cases x with
  | ok a => simp [Except.mapError] at h
  | error e' => exact ⟨e', by simpa [Except.mapError, eq_comm] using h⟩

/-- The keys are refused as invalid. -/
theorem keySet_eq_error {keys : List String} {e : Response} (h : keySet keys = .error e) :
    ∃ err, e = invalidRequest err := by
  obtain ⟨value, -, set, herr⟩ := exists_of_foldlM_error h
  cases hk : (Key.new value).mapError invalidRequest with
  | error e' =>
    obtain ⟨err, rfl⟩ := mapError_eq_error hk
    exact ⟨err, by simpa [hk, bind, Except.bind, eq_comm] using herr⟩
  | ok key => simp [hk, bind, Except.bind] at herr

/-- `reconstruct` refuses a request as invalid. -/
theorem reconstruct_eq_error {query : String} {keys : List String} {context : Option String}
    {e : Response} (h : reconstruct query keys context = .error e) :
    ∃ err, e = invalidRequest err := by
  unfold reconstruct at h
  cases hq : (QueryText.new query).mapError invalidRequest with
  | error e' =>
    obtain ⟨err, rfl⟩ := mapError_eq_error hq
    exact ⟨err, by simpa [hq, bind, Except.bind, eq_comm] using h⟩
  | ok query' =>
    cases hk : keySet keys with
    | error e' =>
      obtain ⟨err, rfl⟩ := keySet_eq_error hk
      exact ⟨err, by simpa [hq, hk, bind, Except.bind, eq_comm] using h⟩
    | ok set =>
      cases hc : (context.mapM Context.new).mapError invalidRequest with
      | error e' =>
        obtain ⟨err, rfl⟩ := mapError_eq_error hc
        exact ⟨err, by simpa [hq, hk, hc, bind, Except.bind, eq_comm] using h⟩
      | ok context' => simp [hq, hk, hc, bind, Except.bind] at h

end Semisweet.Protocol
