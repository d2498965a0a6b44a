import Semisweet.Protocol.Messages
import Semisweet.Protocol.Framing
import Semisweet.Foundations.Varint

/-!
# The bytes of a message

`encode` (`src/protocol.rs`) is `postcard`'s encoding of what `serde` derives for the messages:
the index of the variant and then its fields, in order. An index, a length and a `u32` are
varints, a `String` and a `ByteBuf` are their bytes with the length in front, and a `ClientId`
is its sixteen bytes.

A request and its response share one limit on their frames, but not their envelopes. The
payload is in both with the same length in front, and around it a `Set` has at least the tag
and four fields of a byte, a `Value` the tag and one.

## What is proved

* `length_value_add_le` — a `Value` is shorter than the `Set` of its payload.
* `Settable.fits` — what a frame can set, a frame can serve.
-/

namespace Semisweet.Protocol

open Semisweet.Core Semisweet.Foundations

/-! ### What is derived -/

/-- A `String`. -/
def serializeStr (s : String) : List UInt8 := sized (asBytes s)

/-- A `u32`. -/
def serializeU32 (n : UInt32) : List UInt8 := varint 5 n.toNat

/-- The index of a variant, a `u32` too. -/
def variantIndex (n : UInt32) : List UInt8 := serializeU32 n

/-- `ClientId::serialize`: an array has no length in front. -/
def ClientId.serialize (self : ClientId) : List UInt8 := self.uuid.toList

/-- `Serialize` of `Request`. -/
def Request.serialize : Request → List UInt8
  | .hello client protocol pid =>
    variantIndex 0 ++ client.serialize ++ serializeU32 protocol ++ serializeU32 pid
  | .registerNamespace ns configJson => variantIndex 1 ++ serializeStr ns ++ serializeStr configJson
  | .get ns query keys context =>
    variantIndex 2 ++ serializeStr ns ++ serializeStr query ++ counted serializeStr keys ++
      maybe serializeStr context
  | .set ns query keys context value =>
    variantIndex 3 ++ serializeStr ns ++ serializeStr query ++ counted serializeStr keys ++
      maybe serializeStr context ++ sized value
  | .del ns query keys context =>
    variantIndex 4 ++ serializeStr ns ++ serializeStr query ++ counted serializeStr keys ++
      maybe serializeStr context
  | .ping => variantIndex 5
  | .bye => variantIndex 6

/-- `Serialize` of `ProtocolError`. -/
def ProtocolError.serialize : ProtocolError → List UInt8
  | .versionMismatch client daemon => variantIndex 0 ++ serializeU32 client ++ serializeU32 daemon
  | .unknownNamespace ns => variantIndex 1 ++ serializeStr ns
  | .invalidRequest message => variantIndex 2 ++ serializeStr message
  | .backendInit message => variantIndex 3 ++ serializeStr message

/-- A `bool`. -/
def serializeBool (b : Bool) : List UInt8 := [if b then 1 else 0]

/-- `Serialize` of `Response`. -/
def Response.serialize : Response → List UInt8
  | .welcome daemonVersion protocol =>
    variantIndex 0 ++ serializeStr daemonVersion ++ serializeU32 protocol
  | .registered => variantIndex 1
  | .value payload => variantIndex 2 ++ maybe sized payload
  | .accepted pushed => variantIndex 3 ++ serializeBool pushed
  | .deleted removed => variantIndex 4 ++ serializeBool removed
  | .pong => variantIndex 5
  | .goodbye => variantIndex 6
  | .error e => variantIndex 7 ++ e.serialize

/-- `encode`: `postcard::to_stdvec` fails for none of these. -/
def encode {T : Type} (serialize : T → List UInt8) (message : T) : Except Error (List UInt8) :=
  .ok (serialize message)

theorem fits_encode_iff {T : Type} {serialize : T → List UInt8} {message : T} :
    Fits (encode serialize) message ↔ (serialize message).length ≤ maxFrameBytes := by
  simp [Fits, encode]

/-! ### The two envelopes -/

/-- **A `Value` is shorter than the `Set` of its payload.** -/
theorem length_value_add_le (ns query : String) (keys : List String) (context : Option String)
    (value : List UInt8) :
    (Response.value (some value)).serialize.length + 3 ≤
      (Request.set ns query keys context value).serialize.length := by
  have hns : 0 < (serializeStr ns).length := length_sized_pos _
  have hquery : 0 < (serializeStr query).length := length_sized_pos _
  have hkeys := length_counted_pos serializeStr keys
  have hcontext := length_maybe_pos serializeStr context
  have hset : (variantIndex 3).length = 1 := rfl
  have hvalue : (variantIndex 2).length = 1 := rfl
  simp only [Response.serialize, Request.serialize, List.length_append, length_maybe_some]
  omega

/-- A frame can set the payload. -/
def Settable (value : List UInt8) : Prop :=
  ∃ ns query keys context, Fits (encode Request.serialize) (.set ns query keys context value)

/-- **What a frame can set, a frame can serve.** -/
theorem Settable.fits {value : List UInt8} (h : Settable value) :
    Fits (encode Response.serialize) (.value (some value)) := by
  obtain ⟨ns, query, keys, context, h⟩ := h
  rw [fits_encode_iff] at h ⊢
  have := length_value_add_le ns query keys context value
  omega

/-- A miss can be served. -/
theorem fits_value_none : Fits (encode Response.serialize) (.value none) := by
  rw [fits_encode_iff]
  decide

end Semisweet.Protocol
