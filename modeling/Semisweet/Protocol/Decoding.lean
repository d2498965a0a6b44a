import Semisweet.Core.EntryBuffer
import Semisweet.Foundations.Codes
import Semisweet.Protocol.Encoding

/-!
# Messages from bytes

`decode` (`src/protocol.rs`) is `postcard`'s decoding of what `serde` derives for the messages:
the index of the variant, and then the fields of that variant in order. An index that no variant
has, a length that the bytes fall short of, a `String` that is not UTF-8 and a flag that is
neither 0 nor 1 are all refused, and the bytes after the message are not looked at.

## The model

How `postcard` reads a number, a length and a flag is a parameter (`Deserializer`), of which no
more is known than its wire format says: it reads back what is written, whatever follows, and
reads no value from less than the shortest way to write it. `Deserializer.postcard` is its
decoder of version 1, which takes a number with digits it does not need.

## What is proved

* `request_reads`, `response_reads` — the derived readers undo the derived encodings.
* `messages_on_the_wire` — the round trip of every message; nothing is decoded from part of a
  message; and messages whose frames follow each other are read back, in order.
-/

namespace Semisweet.Protocol

open Semisweet.Core Semisweet.Foundations

/-- How `postcard` reads the primitives. -/
structure Deserializer where
  /-- A `u32`. -/
  u32 : Reader UInt8 Unit UInt32
  /-- A length. -/
  usize : Reader UInt8 Unit ℕ
  /-- A `bool`, and whether an `Option` is `Some`. -/
  bool : Reader UInt8 Unit Bool
  /-- Every `u32` is read back. -/
  u32_reads : Reads u32 serializeU32 fun _ => True
  /-- Every length of 64 bits is. -/
  usize_reads : Reads usize varintLen (· < 2 ^ 64)
  /-- And every `bool`. -/
  bool_reads : Reads bool serializeBool fun _ => True

/-- `str::from_utf8`. -/
def fromUtf8 (bytes : List UInt8) : Except Unit String :=
  match String.fromUTF8? bytes.toByteArray with
  | some s => .ok s
  | none => .error ()

/-- The sixteen bytes of a `ClientId`. -/
def ClientId.fromBytes (bytes : List UInt8) : Except Unit ClientId :=
  if h : bytes.toArray.size = 16 then .ok ⟨⟨bytes.toArray, h⟩⟩ else .error ()

/-- `ClientId::deserialize`. -/
def ClientId.deserialize : Reader UInt8 Unit ClientId :=
  (readExactly () 16).bind fun bytes s => (ClientId.fromBytes bytes, s)

namespace Deserializer

variable (self : Deserializer)

/-- A `String`. -/
def str : Reader UInt8 Unit String :=
  (readSized () self.usize).bind fun bytes s => (fromUtf8 bytes, s)

/-- The fields that `Get`, `Set` and `Del` begin with. -/
def lookup {T : Type} (next : String → String → List String → Option String → Reader UInt8 Unit T) :
    Reader UInt8 Unit T :=
  self.str.bind fun ns => self.str.bind fun query =>
    (readCounted self.usize self.str).bind fun keys =>
      (readMaybe self.bool self.str).bind fun context => next ns query keys context

/-- The fields of a variant of `Request`. -/
def requestFields : ℕ → Reader UInt8 Unit Request
  | 0 => ClientId.deserialize.bind fun client => self.u32.bind fun protocol =>
      self.u32.bind fun pid => .ret (.hello client protocol pid)
  | 1 => self.str.bind fun ns => self.str.bind fun configJson =>
      .ret (.registerNamespace ns configJson)
  | 2 => self.lookup fun ns query keys context => .ret (.get ns query keys context)
  | 3 => self.lookup fun ns query keys context =>
      (readSized () self.usize).bind fun value => .ret (.set ns query keys context value)
  | 4 => self.lookup fun ns query keys context => .ret (.del ns query keys context)
  | 5 => .ret .ping
  | 6 => .ret .bye
  | _ => .fail ()

/-- `Deserialize` of `Request`. -/
def request : Reader UInt8 Unit Request :=
  self.u32.bind fun variant => self.requestFields variant.toNat

/-- The fields of a variant of `ProtocolError`. -/
def protocolErrorFields : ℕ → Reader UInt8 Unit ProtocolError
  | 0 => self.u32.bind fun client => self.u32.bind fun daemon =>
      .ret (.versionMismatch client daemon)
  | 1 => self.str.bind fun ns => .ret (.unknownNamespace ns)
  | 2 => self.str.bind fun message => .ret (.invalidRequest message)
  | 3 => self.str.bind fun message => .ret (.backendInit message)
  | _ => .fail ()

/-- `Deserialize` of `ProtocolError`. -/
def protocolError : Reader UInt8 Unit ProtocolError :=
  self.u32.bind fun variant => self.protocolErrorFields variant.toNat

/-- The fields of a variant of `Response`. -/
def responseFields : ℕ → Reader UInt8 Unit Response
  | 0 => self.str.bind fun daemonVersion => self.u32.bind fun protocol =>
      .ret (.welcome daemonVersion protocol)
  | 1 => .ret .registered
  | 2 => (readMaybe self.bool (readSized () self.usize)).bind fun payload => .ret (.value payload)
  | 3 => self.bool.bind fun pushed => .ret (.accepted pushed)
  | 4 => self.bool.bind fun removed => .ret (.deleted removed)
  | 5 => .ret .pong
  | 6 => .ret .goodbye
  | 7 => self.protocolError.bind fun e => .ret (.error e)
  | _ => .fail ()

/-- `Deserialize` of `Response`. -/
def response : Reader UInt8 Unit Response :=
  self.u32.bind fun variant => self.responseFields variant.toNat

end Deserializer

/-- `decode`: the bytes after the message are not looked at. -/
def decode {T : Type} (deserialize : Reader UInt8 Unit T) (bytes : List UInt8) : Except Error T :=
  match (deserialize bytes).1 with
  | .ok message => .ok message
  | .error () => .error .codec

/-! ### The readers undo the encodings -/

theorem fromUtf8_asBytes (s : String) : fromUtf8 (asBytes s) = .ok s := by
  rw [fromUtf8, toByteArray_asBytes, String.fromUTF8?, dif_pos s.isValidUTF8]
  rfl

theorem asBytes_of_fromUtf8 {bytes : List UInt8} {s : String} (h : fromUtf8 bytes = .ok s) :
    asBytes s = bytes := by
  unfold fromUtf8 String.fromUTF8? at h
  split at h
  · rename_i hs
    split at hs
    · obtain rfl := Except.ok.inj h
      obtain rfl := Option.some.inj hs
      have hdata := congrArg ByteArray.data (toByteArray_asBytes (String.fromUTF8 _ ‹_›))
      rw [List.data_toByteArray] at hdata
      simpa [String.fromUTF8] using hdata
    · cases hs
  · cases h

/-- **A `String` is read back.** -/
theorem Deserializer.str_reads (self : Deserializer) :
    Reads self.str serializeStr fun s => (asBytes s).length < 2 ^ 64 :=
  (reads_sized () self.usize_reads).check fromUtf8 asBytes fromUtf8_asBytes fun _ _ =>
    asBytes_of_fromUtf8

/-- A `ClientId` is read back. -/
theorem ClientId.deserialize_reads :
    Reads ClientId.deserialize ClientId.serialize fun _ => True := by
  have hbytes : Reads (readExactly () 16) id fun bytes : List UInt8 => bytes.length = 16 :=
    reads_exactly 16
  have h := hbytes.check ClientId.fromBytes ClientId.serialize (fun client => ?_)
    fun bytes client h => ?_
  · exact ⟨fun tail _ => h.whole tail (by simp [ClientId.serialize]), h.steady, h.least⟩
  · simp [ClientId.fromBytes, ClientId.serialize, Vector.toArray_toList]
  · unfold ClientId.fromBytes at h
    split at h
    · obtain rfl := Except.ok.inj h
      simp [ClientId.serialize]
    · cases h

/-! ### The fields of a lookup -/

section Lookup

variable (self : Deserializer) {T : Type}
  {next : String → String → List String → Option String → Reader UInt8 Unit T}
  {ns query : String} {keys : List String} {context : Option String}

/-- The bytes of the fields. -/
def serializeLookup (ns query : String) (keys : List String) (context : Option String) :
    List UInt8 :=
  serializeStr ns ++ (serializeStr query ++ (counted serializeStr keys ++
    maybe serializeStr context))

/-- Lengths of text are of 64 bits, where the bytes of the text are that few. -/
theorem length_asBytes_lt {s : String} {bytes : List UInt8} (hbytes : bytes.length < 2 ^ 64)
    (hle : (serializeStr s).length ≤ bytes.length) : (asBytes s).length < 2 ^ 64 := by
  have : (asBytes s).length ≤ (serializeStr s).length := length_le_sized _
  omega

/-- **The fields are read back.** -/
theorem Deserializer.lookup_append (tail : List UInt8)
    (h : (serializeLookup ns query keys context).length < 2 ^ 64) :
    self.lookup next (serializeLookup ns query keys context ++ tail) =
      next ns query keys context tail := by
  have hcounted : (keys.flatMap serializeStr).length ≤ (counted serializeStr keys).length := by
    rw [counted, List.length_append]
    omega
  have hpos : ∀ s, 0 < (serializeStr s).length := fun s => length_sized_pos _
  obtain ⟨hcount, hkey⟩ := length_le_flatMap hpos keys
  simp only [serializeLookup, List.length_append] at h
  have hns : (asBytes ns).length < 2 ^ 64 := length_asBytes_lt (by omega) le_rfl
  have hquery : (asBytes query).length < 2 ^ 64 := length_asBytes_lt (by omega) le_rfl
  have hkeys : keys.length < 2 ^ 64 ∧ ∀ key ∈ keys, (asBytes key).length < 2 ^ 64 :=
    ⟨by omega, fun key hk => length_asBytes_lt (by omega) (hkey key hk)⟩
  have hcontext : ∀ c ∈ context, (asBytes c).length < 2 ^ 64 := by
    rintro c rfl
    rw [length_maybe_some] at h
    exact length_asBytes_lt (by omega) le_rfl
  rw [serializeLookup, List.append_assoc, List.append_assoc, List.append_assoc, lookup,
    Reader.bind_of_ok (self.str_reads.whole _ hns),
    Reader.bind_of_ok (self.str_reads.whole _ hquery),
    Reader.bind_of_ok ((reads_counted self.usize_reads self.str_reads).whole _ hkeys),
    Reader.bind_of_ok ((reads_maybe self.bool_reads self.str_reads).whole _ hcontext)]

theorem Deserializer.steady_lookup
    (h : ∀ ns query keys context, Steady (next ns query keys context)) :
    Steady (self.lookup next) :=
  self.str_reads.steady.bind fun _ => self.str_reads.steady.bind fun _ =>
    (reads_counted self.usize_reads self.str_reads).steady.bind fun _ =>
      (reads_maybe self.bool_reads self.str_reads).steady.bind fun _ => h _ _ _ _

/-- What is read after the fields, is read from what they left. -/
theorem Deserializer.lookup_eq_ok {s rest : List UInt8} {message : T}
    (h : self.lookup next s = (.ok message, rest)) :
    ∃ ns query keys context mid, next ns query keys context mid = (.ok message, rest) ∧
      (serializeLookup ns query keys context).length + mid.length ≤ s.length := by
  obtain ⟨ns, s₁, hns, h⟩ := Reader.bind_eq_ok.mp h
  obtain ⟨query, s₂, hquery, h⟩ := Reader.bind_eq_ok.mp h
  obtain ⟨keys, s₃, hkeys, h⟩ := Reader.bind_eq_ok.mp h
  obtain ⟨context, s₄, hcontext, h⟩ := Reader.bind_eq_ok.mp h
  have h₁ := self.str_reads.least hns
  have h₂ := self.str_reads.least hquery
  have h₃ := (reads_counted self.usize_reads self.str_reads).least hkeys
  have h₄ := (reads_maybe self.bool_reads self.str_reads).least hcontext
  refine ⟨ns, query, keys, context, s₄, h, ?_⟩
  simp only [serializeLookup, List.length_append]
  omega

end Lookup

/-! ### The messages -/

theorem serialize_get (ns query : String) (keys : List String) (context : Option String) :
    (Request.get ns query keys context).serialize =
      variantIndex 2 ++ serializeLookup ns query keys context := by
  simp [Request.serialize, serializeLookup]

theorem serialize_set (ns query : String) (keys : List String) (context : Option String)
    (value : List UInt8) :
    (Request.set ns query keys context value).serialize =
      variantIndex 3 ++ (serializeLookup ns query keys context ++ sized value) := by
  simp [Request.serialize, serializeLookup]

theorem serialize_del (ns query : String) (keys : List String) (context : Option String) :
    (Request.del ns query keys context).serialize =
      variantIndex 4 ++ serializeLookup ns query keys context := by
  simp [Request.serialize, serializeLookup]

/-- The index of a variant is read first. -/
theorem Deserializer.variant_append (self : Deserializer) {T : Type}
    (fields : ℕ → Reader UInt8 Unit T) (variant : UInt32) (tail : List UInt8) :
    self.u32.bind (fun variant => fields variant.toNat) (variantIndex variant ++ tail) =
      fields variant.toNat tail :=
  Reader.bind_of_ok (self.u32_reads.whole _ trivial)

/-- It takes a byte or more. -/
theorem Deserializer.variant_eq_ok (self : Deserializer) {T : Type}
    {fields : ℕ → Reader UInt8 Unit T} {s rest : List UInt8} {message : T}
    (h : self.u32.bind (fun variant => fields variant.toNat) s = (.ok message, rest)) :
    ∃ variant mid, fields variant mid = (.ok message, rest) ∧ 1 + mid.length ≤ s.length := by
  obtain ⟨variant, mid, hvariant, h⟩ := Reader.bind_eq_ok.mp h
  have hle := self.u32_reads.least hvariant
  have hpos : 0 < (serializeU32 variant).length := length_varint_pos 4 _
  exact ⟨variant.toNat, mid, h, by omega⟩

/-- The index of a variant of the messages is a byte. -/
theorem length_variantIndex {n : UInt32} (hn : n.toNat < 128) : (variantIndex n).length = 1 := by
  rw [variantIndex, serializeU32, varint, if_pos hn, List.length_singleton]

theorem Deserializer.steady_request (self : Deserializer) : Steady self.request := by
  refine self.u32_reads.steady.bind fun variant => ?_
  have hsized := (reads_sized () self.usize_reads).steady
  match variant.toNat with
  | 0 => exact ClientId.deserialize_reads.steady.bind fun _ =>
      self.u32_reads.steady.bind fun _ => self.u32_reads.steady.bind fun _ => .ret
  | 1 => exact self.str_reads.steady.bind fun _ => self.str_reads.steady.bind fun _ => .ret
  | 2 | 4 => exact self.steady_lookup fun _ _ _ _ => .ret
  | 3 => exact self.steady_lookup fun _ _ _ _ => hsized.bind fun _ => .ret
  | 5 | 6 => exact .ret
  | _ + 7 => exact .fail

/-- A request is read from no less than its encoding. -/
theorem Deserializer.least_request (self : Deserializer) {s rest : List UInt8} {m : Request}
    (h : self.request s = (.ok m, rest)) :
    m.serialize.length + rest.length ≤ s.length := by
  obtain ⟨variant, mid, h, hvariant⟩ := self.variant_eq_ok h
  match variant, h with
  | 0, h =>
    obtain ⟨client, s₁, hclient, h⟩ := Reader.bind_eq_ok.mp h
    obtain ⟨protocol, s₂, hprotocol, h⟩ := Reader.bind_eq_ok.mp h
    obtain ⟨pid, s₃, hpid, h⟩ := Reader.bind_eq_ok.mp h
    obtain ⟨rfl, rfl⟩ := Reader.ret_eq_ok.mp h
    have h₁ := ClientId.deserialize_reads.least hclient
    have h₂ := self.u32_reads.least hprotocol
    have h₃ := self.u32_reads.least hpid
    simp only [Request.serialize, List.length_append, length_variantIndex (n := 0) (by decide)]
    omega
  | 1, h =>
    obtain ⟨ns, s₁, hns, h⟩ := Reader.bind_eq_ok.mp h
    obtain ⟨configJson, s₂, hjson, h⟩ := Reader.bind_eq_ok.mp h
    obtain ⟨rfl, rfl⟩ := Reader.ret_eq_ok.mp h
    have h₁ := self.str_reads.least hns
    have h₂ := self.str_reads.least hjson
    simp only [Request.serialize, List.length_append, length_variantIndex (n := 1) (by decide)]
    omega
  | 2, h =>
    obtain ⟨ns, query, keys, context, left, hret, hle⟩ := self.lookup_eq_ok h
    obtain ⟨rfl, rfl⟩ := Reader.ret_eq_ok.mp hret
    rw [serialize_get, List.length_append, length_variantIndex (by decide)]
    omega
  | 3, h =>
    obtain ⟨ns, query, keys, context, left, h, hle⟩ := self.lookup_eq_ok h
    obtain ⟨value, left', hvalue, hret⟩ := Reader.bind_eq_ok.mp h
    obtain ⟨rfl, rfl⟩ := Reader.ret_eq_ok.mp hret
    have hlast := (reads_sized () self.usize_reads).least hvalue
    rw [serialize_set, List.length_append, List.length_append, length_variantIndex (by decide)]
    omega
  | 4, h =>
    obtain ⟨ns, query, keys, context, left, hret, hle⟩ := self.lookup_eq_ok h
    obtain ⟨rfl, rfl⟩ := Reader.ret_eq_ok.mp hret
    rw [serialize_del, List.length_append, length_variantIndex (by decide)]
    omega
  | 5, h =>
    obtain ⟨rfl, rfl⟩ := Reader.ret_eq_ok.mp h
    rw [Request.serialize, length_variantIndex (by decide)]
    exact hvariant
  | 6, h =>
    obtain ⟨rfl, rfl⟩ := Reader.ret_eq_ok.mp h
    rw [Request.serialize, length_variantIndex (by decide)]
    exact hvariant
  | _ + 7, h => cases h

/-- **A request is read back.** -/
theorem request_reads (self : Deserializer) :
    Reads self.request Request.serialize fun m => m.serialize.length < 2 ^ 64 where
  whole := by
    intro m tail hm
    cases m with
    | hello client protocol pid =>
      simp only [Request.serialize, List.append_assoc]
      rw [Deserializer.request, self.variant_append]
      refine (Reader.bind_of_ok (ClientId.deserialize_reads.whole _ trivial)).trans ?_
      rw [Reader.bind_of_ok (self.u32_reads.whole _ trivial),
        Reader.bind_of_ok (self.u32_reads.whole _ trivial)]
      rfl
    | registerNamespace ns configJson =>
      simp only [Request.serialize, List.append_assoc, List.length_append] at hm ⊢
      have hns : (asBytes ns).length < 2 ^ 64 := length_asBytes_lt (by omega) le_rfl
      have hjson : (asBytes configJson).length < 2 ^ 64 := length_asBytes_lt (by omega) le_rfl
      rw [Deserializer.request, self.variant_append]
      refine (Reader.bind_of_ok (self.str_reads.whole _ hns)).trans ?_
      rw [Reader.bind_of_ok (self.str_reads.whole _ hjson)]
      rfl
    | get ns query keys context =>
      rw [serialize_get, List.length_append] at hm
      rw [serialize_get, List.append_assoc, Deserializer.request, self.variant_append]
      exact self.lookup_append tail (by omega)
    | set ns query keys context value =>
      simp only [serialize_set, List.length_append] at hm
      have hvalue : value.length < 2 ^ 64 := by
        have := length_le_sized value
        omega
      rw [serialize_set, List.append_assoc, List.append_assoc, Deserializer.request,
        self.variant_append]
      refine (self.lookup_append _ (by omega)).trans ?_
      exact Reader.bind_of_ok ((reads_sized () self.usize_reads).whole _ hvalue)
    | del ns query keys context =>
      rw [serialize_del, List.length_append] at hm
      rw [serialize_del, List.append_assoc, Deserializer.request, self.variant_append]
      exact self.lookup_append tail (by omega)
    | ping =>
      rw [Request.serialize, Deserializer.request, self.variant_append]
      rfl
    | bye =>
      rw [Request.serialize, Deserializer.request, self.variant_append]
      rfl
  steady := self.steady_request
  least := self.least_request

theorem Deserializer.steady_protocolError (self : Deserializer) : Steady self.protocolError := by
  refine self.u32_reads.steady.bind fun variant => ?_
  match variant.toNat with
  | 0 => exact self.u32_reads.steady.bind fun _ => self.u32_reads.steady.bind fun _ => .ret
  | 1 | 2 | 3 => exact self.str_reads.steady.bind fun _ => .ret
  | _ + 4 => exact .fail

/-- So is a protocol error. -/
theorem Deserializer.least_protocolError (self : Deserializer) {s rest : List UInt8}
    {e : ProtocolError} (h : self.protocolError s = (.ok e, rest)) :
    e.serialize.length + rest.length ≤ s.length := by
  obtain ⟨variant, mid, h, hvariant⟩ := self.variant_eq_ok h
  match variant, h with
  | 0, h =>
    obtain ⟨client, s₁, hclient, h⟩ := Reader.bind_eq_ok.mp h
    obtain ⟨daemon, s₂, hdaemon, h⟩ := Reader.bind_eq_ok.mp h
    obtain ⟨rfl, rfl⟩ := Reader.ret_eq_ok.mp h
    have h₁ := self.u32_reads.least hclient
    have h₂ := self.u32_reads.least hdaemon
    simp only [ProtocolError.serialize, List.length_append,
      length_variantIndex (n := 0) (by decide)]
    omega
  | 1, h | 2, h | 3, h =>
    obtain ⟨text, s₁, htext, h⟩ := Reader.bind_eq_ok.mp h
    obtain ⟨rfl, rfl⟩ := Reader.ret_eq_ok.mp h
    have h₁ := self.str_reads.least htext
    rw [ProtocolError.serialize, List.length_append, length_variantIndex (by decide)]
    omega
  | _ + 4, h => cases h

/-- **A protocol error is read back.** -/
theorem protocolError_reads (self : Deserializer) :
    Reads self.protocolError ProtocolError.serialize fun e => e.serialize.length < 2 ^ 64 where
  whole := by
    intro e tail he
    cases e with
    | versionMismatch client daemon =>
      simp only [ProtocolError.serialize, List.append_assoc]
      rw [Deserializer.protocolError, self.variant_append]
      refine (Reader.bind_of_ok (self.u32_reads.whole _ trivial)).trans ?_
      rw [Reader.bind_of_ok (self.u32_reads.whole _ trivial)]
      rfl
    | unknownNamespace text | invalidRequest text | backendInit text =>
      rw [ProtocolError.serialize, List.length_append] at he
      have htext : (asBytes text).length < 2 ^ 64 := length_asBytes_lt (by omega) le_rfl
      rw [ProtocolError.serialize, List.append_assoc, Deserializer.protocolError,
        self.variant_append]
      exact Reader.bind_of_ok (self.str_reads.whole _ htext)
  steady := self.steady_protocolError
  least := self.least_protocolError

theorem Deserializer.steady_response (self : Deserializer) : Steady self.response := by
  refine self.u32_reads.steady.bind fun variant => ?_
  have hsized := reads_sized () self.usize_reads
  match variant.toNat with
  | 0 => exact self.str_reads.steady.bind fun _ => self.u32_reads.steady.bind fun _ => .ret
  | 2 => exact (reads_maybe self.bool_reads hsized).steady.bind fun _ => .ret
  | 3 | 4 => exact self.bool_reads.steady.bind fun _ => .ret
  | 7 => exact (protocolError_reads self).steady.bind fun _ => .ret
  | 1 | 5 | 6 => exact .ret
  | _ + 8 => exact .fail

/-- So is a response. -/
theorem Deserializer.least_response (self : Deserializer) {s rest : List UInt8} {m : Response}
    (h : self.response s = (.ok m, rest)) :
    m.serialize.length + rest.length ≤ s.length := by
  obtain ⟨variant, mid, h, hvariant⟩ := self.variant_eq_ok h
  match variant, h with
  | 0, h =>
    obtain ⟨daemonVersion, s₁, hversion, h⟩ := Reader.bind_eq_ok.mp h
    obtain ⟨protocol, s₂, hprotocol, h⟩ := Reader.bind_eq_ok.mp h
    obtain ⟨rfl, rfl⟩ := Reader.ret_eq_ok.mp h
    have h₁ := self.str_reads.least hversion
    have h₂ := self.u32_reads.least hprotocol
    simp only [Response.serialize, List.length_append, length_variantIndex (n := 0) (by decide)]
    omega
  | 2, h =>
    obtain ⟨payload, s₁, hpayload, h⟩ := Reader.bind_eq_ok.mp h
    obtain ⟨rfl, rfl⟩ := Reader.ret_eq_ok.mp h
    have h₁ := (reads_maybe self.bool_reads (reads_sized () self.usize_reads)).least hpayload
    rw [Response.serialize, List.length_append, length_variantIndex (by decide)]
    omega
  | 3, h | 4, h =>
    obtain ⟨flag, s₁, hflag, h⟩ := Reader.bind_eq_ok.mp h
    obtain ⟨rfl, rfl⟩ := Reader.ret_eq_ok.mp h
    have h₁ := self.bool_reads.least hflag
    rw [Response.serialize, List.length_append, length_variantIndex (by decide)]
    omega
  | 7, h =>
    obtain ⟨e, s₁, he, h⟩ := Reader.bind_eq_ok.mp h
    obtain ⟨rfl, rfl⟩ := Reader.ret_eq_ok.mp h
    have h₁ := (protocolError_reads self).least he
    rw [Response.serialize, List.length_append, length_variantIndex (by decide)]
    omega
  | 1, h | 5, h | 6, h =>
    obtain ⟨rfl, rfl⟩ := Reader.ret_eq_ok.mp h
    rw [Response.serialize, length_variantIndex (by decide)]
    exact hvariant
  | _ + 8, h => cases h

/-- **A response is read back.** -/
theorem response_reads (self : Deserializer) :
    Reads self.response Response.serialize fun m => m.serialize.length < 2 ^ 64 where
  whole := by
    intro m tail hm
    cases m with
    | welcome daemonVersion protocol =>
      simp only [Response.serialize, List.append_assoc, List.length_append] at hm ⊢
      have htext : (asBytes daemonVersion).length < 2 ^ 64 := length_asBytes_lt (by omega) le_rfl
      rw [Deserializer.response, self.variant_append]
      refine (Reader.bind_of_ok (self.str_reads.whole _ htext)).trans ?_
      rw [Reader.bind_of_ok (self.u32_reads.whole _ trivial)]
      rfl
    | value payload =>
      rw [Response.serialize, List.length_append] at hm
      have hpayload : ∀ bytes ∈ payload, bytes.length < 2 ^ 64 := by
        rintro bytes rfl
        have := length_le_sized bytes
        rw [length_maybe_some] at hm
        omega
      rw [Response.serialize, List.append_assoc, Deserializer.response, self.variant_append]
      exact Reader.bind_of_ok
        ((reads_maybe self.bool_reads (reads_sized () self.usize_reads)).whole _ hpayload)
    | accepted flag | deleted flag =>
      rw [Response.serialize, List.append_assoc, Deserializer.response, self.variant_append]
      exact Reader.bind_of_ok (self.bool_reads.whole _ trivial)
    | error e =>
      rw [Response.serialize, List.length_append] at hm
      rw [Response.serialize, List.append_assoc, Deserializer.response, self.variant_append]
      exact Reader.bind_of_ok ((protocolError_reads self).whole _ (by omega))
    | registered | pong | goodbye =>
      rw [Response.serialize, Deserializer.response, self.variant_append]
      rfl
  steady := self.steady_response
  least := self.least_response

/-! ### What is decoded -/

section Decode

variable {T : Type} {deserialize : Reader UInt8 Unit T} {serialize : T → List UInt8}
  {good : T → Prop} {m : T} {bytes : List UInt8}

theorem decode_eq_ok :
    decode deserialize bytes = .ok m ↔ ∃ rest, deserialize bytes = (.ok m, rest) := by
  unfold decode
  cases h : deserialize bytes with
  | mk result rest => cases result <;> simp

theorem decode_append (h : Reads deserialize serialize good) (hm : good m) (tail : List UInt8) :
    decode deserialize (serialize m ++ tail) = .ok m :=
  decode_eq_ok.mpr ⟨tail, h.whole tail hm⟩

theorem decode_take (h : Reads deserialize serialize good) (hm : good m) {n : ℕ}
    (hn : n < (serialize m).length) :
    decode deserialize ((serialize m).take n) = .error .codec := by
  obtain ⟨_, hcut⟩ := h.cut hm hn
  rw [decode, hcut]

theorem length_le_of_decode (h : Reads deserialize serialize good)
    (hdecode : decode deserialize bytes = .ok m) : (serialize m).length ≤ bytes.length := by
  obtain ⟨rest, hread⟩ := decode_eq_ok.mp hdecode
  have := h.least hread
  omega

/-- What a frame holds is decoded. -/
theorem frames_delimited_of_reads
    (h : Reads deserialize serialize fun m => (serialize m).length < 2 ^ 64) :
    Delimits (readFrame (decode deserialize)) (frame (encode serialize)) (Fits (encode serialize))
      (.io .unexpectedEof) := by
  refine frames_delimited_of_fits fun m body hbody hlen => ?_
  obtain rfl := Except.ok.inj hbody
  have hgood : (serialize m).length < 2 ^ 64 := by
    unfold maxFrameBytes at hlen
    omega
  have hdecode := decode_append h hgood []
  rwa [List.append_nil] at hdecode

/-- How the bytes of a kind of message are read. -/
structure OnTheWire (deserialize : Reader UInt8 Unit T) (serialize : T → List UInt8) : Prop where
  /-- A message is decoded from its encoding, whatever follows it. -/
  whole {m : T} (tail : List UInt8) : (serialize m).length < 2 ^ 64 →
    decode deserialize (serialize m ++ tail) = .ok m
  /-- Nothing is decoded from a part of it. -/
  cut {m : T} {n : ℕ} : (serialize m).length < 2 ^ 64 → n < (serialize m).length →
    decode deserialize ((serialize m).take n) = .error .codec
  /-- What is decoded was no shorter than its encoding. -/
  least {bytes : List UInt8} {m : T} : decode deserialize bytes = .ok m →
    (serialize m).length ≤ bytes.length
  /-- Messages are read back from their frames, and what follows is left. -/
  framed {messages : List T} (tail : List UInt8) :
    (∀ m ∈ messages, Fits (encode serialize) m) →
    ∃ stream, writeFrames (encode serialize) [] messages = (.ok (), stream) ∧
      readMany (readFrame (decode deserialize)) messages.length (stream ++ tail) =
        (.ok messages, tail)

theorem onTheWire_of_reads
    (h : Reads deserialize serialize fun m => (serialize m).length < 2 ^ 64) :
    OnTheWire deserialize serialize where
  whole tail hm := decode_append h hm tail
  cut hm hn := decode_take h hm hn
  least := length_le_of_decode h
  framed tail hfits := ⟨_, writeFrames_eq hfits [], by
    rw [List.nil_append]
    exact (frames_delimited_of_reads h).readMany_flatMap tail hfits⟩

end Decode

/-- **The round trip of every message**, and of frames of them. -/
theorem messages_on_the_wire (self : Deserializer) :
    OnTheWire self.request Request.serialize ∧ OnTheWire self.response Response.serialize :=
  ⟨onTheWire_of_reads (request_reads self), onTheWire_of_reads (response_reads self)⟩

/-! ### The deserializer of version 1 -/

/-- A `u32` of the number read, if it is one. -/
def checkU32 (n : ℕ) : Except Unit UInt32 :=
  match tryFromUsize n with
  | some n => .ok n
  | none => .error ()

/-- A `bool` of the byte read, if it is one. -/
def checkBool : List UInt8 → Except Unit Bool
  | [0] => .ok false
  | [1] => .ok true
  | _ => .error ()

theorem checkU32_toNat (n : UInt32) : checkU32 n.toNat = .ok n := by
  rw [checkU32, tryFromUsize, if_pos n.toNat_lt]
  simp

theorem toNat_of_checkU32 {n : ℕ} {m : UInt32} (h : checkU32 n = .ok m) : m.toNat = n := by
  unfold checkU32 tryFromUsize at h
  split at h
  · rename_i hm
    split at hm
    · obtain rfl := Except.ok.inj h
      obtain rfl := Option.some.inj hm
      rw [UInt32.toNat_ofNat', Nat.mod_eq_of_lt ‹_›]
    · cases hm
  · cases h

theorem serialize_of_checkBool {bytes : List UInt8} {b : Bool} (h : checkBool bytes = .ok b) :
    serializeBool b = bytes := by
  unfold checkBool at h
  split at h
  · obtain rfl := Except.ok.inj h
    rfl
  · obtain rfl := Except.ok.inj h
    rfl
  · cases h

/-- `postcard::from_bytes`: a `u32` is at most five bytes, and a length at most ten. -/
def Deserializer.postcard : Deserializer where
  u32 := (readVarint () 15 5).bind fun n s => (checkU32 n, s)
  usize := readVarint () 1 10
  bool := (readExactly () 1).bind fun bytes s => (checkBool bytes, s)
  u32_reads := by
    have hvarint : Reads (readVarint () 15 5) (varint 5) (· < (15 + 1) * 128 ^ 4) :=
      reads_varint (by decide) 4
    have h := hvarint.check checkU32 UInt32.toNat checkU32_toNat fun _ _ => toNat_of_checkU32
    exact ⟨fun {n} tail _ => h.whole tail n.toNat_lt, h.steady, h.least⟩
  usize_reads := reads_varint (by decide) 9
  bool_reads := by
    have hbyte : Reads (readExactly () 1) id fun bytes : List UInt8 => bytes.length = 1 :=
      reads_exactly 1
    have h := hbyte.check checkBool serializeBool (by rintro (_ | _) <;> rfl)
      fun _ _ => serialize_of_checkBool
    exact ⟨fun {_} tail _ => h.whole tail rfl, h.steady, h.least⟩

/-- A request with a digit more than it needs in front, and a byte after it. -/
example : decode Deserializer.postcard.request [0x85, 0x00, 0xFF] = .ok .ping := by decide

end Semisweet.Protocol
