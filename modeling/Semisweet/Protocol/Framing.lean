import Semisweet.Core.Newtype
import Semisweet.Foundations.Delimited

/-!
# Framing

The length-delimited frames of the daemon protocol (`src/protocol.rs`): a frame is the
length of its body in four bytes, most significant first, and then the body. `write_frame`
refuses a body above `MAX_FRAME_BYTES` before it writes anything. `read_frame` refuses such
a length before it reads anything of the body, which `read_body` reads "one chunk at a time
rather than allocating the whole declared length up front".

## The model

The stream a reader reads is the list of the bytes still to come, after which it has ended;
a writer is the list of the bytes written so far. `read_exact` takes as many bytes as it is
asked for, or takes what there is and fails with `UnexpectedEof`. `encode` and `decode` are
`postcard`'s, and so parameters.

## What is proved

* `readBody_eq` — the chunked loop reads what one `read_exact` of the whole length reads.
* `frames_delimited` — frames are a self-delimiting code.
* `framing_round_trip` — what is written in succession is read back in succession, also from a
  stream that is cut, and a frame above the limit is neither written nor read.
-/

namespace Semisweet.Protocol

open Semisweet.Core Semisweet.Foundations

/-- `MAX_FRAME_BYTES`. -/
def maxFrameBytes : ℕ := 64 * 1024 * 1024

/-- `READ_CHUNK_BYTES`. -/
def readChunkBytes : ℕ := 64 * 1024

/-- `u32::to_be_bytes`. -/
def toBeBytes (n : UInt32) : List UInt8 :=
  [3, 2, 1, 0].map fun i => UInt8.ofNat (n.toNat / 256 ^ i)

/-- `u32::from_be_bytes`. -/
def fromBeBytes (bytes : List UInt8) : UInt32 :=
  UInt32.ofNat (bytes.foldl (fun n byte => n * 256 + byte.toNat) 0)

/-- `u32::try_from` of a `usize`. -/
def tryFromUsize (n : ℕ) : Option UInt32 := if n < 2 ^ 32 then some (UInt32.ofNat n) else none

section Frames

variable {T : Type}

/-- `write_frame`: the outcome, and the bytes the writer then has. -/
def writeFrame (encode : T → Except Error (List UInt8)) (writer : List UInt8) (message : T) :
    Except Error Unit × List UInt8 :=
  match encode message with
  | .error e => (.error e, writer)
  | .ok body =>
    if body.length > maxFrameBytes then
      (.error (.daemon s!"frame too large: {body.length} bytes (max {maxFrameBytes})"), writer)
    else
      match tryFromUsize body.length with
      | none => (.error (.daemon s!"frame too large: {body.length} bytes"), writer)
      | some len => (.ok (), writer ++ toBeBytes len ++ body)

/-- `Read::read_exact`. -/
def readExact (n : ℕ) : Reader UInt8 Error (List UInt8) := fun reader =>
  if n ≤ reader.length then (.ok (reader.take n), reader.drop n)
  else (.error (.io .unexpectedEof), [])

theorem readExact_eq_ok {n : ℕ} {reader rest bytes : List UInt8}
    (h : readExact n reader = (.ok bytes, rest)) : bytes.length = n ∧ reader = bytes ++ rest := by
  unfold readExact at h
  split at h
  · simp only [Prod.mk.injEq, Except.ok.injEq] at h
    obtain ⟨rfl, rfl⟩ := h
    exact ⟨by rw [List.length_take]; omega, (List.take_append_drop n reader).symm⟩
  · simp at h

theorem readExact_eq_error {n : ℕ} {reader rest : List UInt8} {e : Error}
    (h : readExact n reader = (.error e, rest)) :
    reader.length < n ∧ e = .io .unexpectedEof ∧ rest = [] := by
  unfold readExact at h
  split at h
  · simp at h
  · simp only [Prod.mk.injEq, Except.error.injEq] at h
    exact ⟨by omega, h.1.symm, h.2.symm⟩

/-- The loop of `read_body`, with what it has read so far. -/
def readChunks (len : ℕ) (body reader : List UInt8) : Except Error (List UInt8) × List UInt8 :=
  if _hlen : body.length < len then
    let want := min (len - body.length) readChunkBytes
    match _hread : readExact want reader with
    | (.error e, rest) => (.error e, rest)
    | (.ok bytes, rest) => readChunks len (body ++ bytes) rest
  else (.ok body, reader)
termination_by len - body.length
decreasing_by
  rw [List.length_append, (readExact_eq_ok _hread).1]
  simp only [want, readChunkBytes]
  omega

/-- `read_body`. -/
def readBody (len : ℕ) : Reader UInt8 Error (List UInt8) := readChunks len []

/-- `read_frame`. -/
def readFrame (decode : List UInt8 → Except Error T) : Reader UInt8 Error T := fun reader =>
  match readExact 4 reader with
  | (.error e, reader) => (.error e, reader)
  | (.ok lenBuf, reader) =>
    let len := (fromBeBytes lenBuf).toNat
    if len > maxFrameBytes then (.error (.daemon s!"frame too large: {len} bytes"), reader)
    else
      match readBody len reader with
      | (.error e, reader) => (.error e, reader)
      | (.ok body, reader) => (decode body, reader)

end Frames

/-! ### Reading exactly -/

theorem readExact_append {n : ℕ} {bytes : List UInt8} (h : bytes.length = n) (tail : List UInt8) :
    readExact n (bytes ++ tail) = (.ok bytes, tail) := by
  subst h
  simp [readExact]

theorem readExact_short {n : ℕ} {reader : List UInt8} (h : reader.length < n) :
    readExact n reader = (.error (.io .unexpectedEof), []) := by
  rw [readExact, if_neg (by omega)]

/-- The loop reads what is missing of the length. -/
theorem readChunks_eq (len : ℕ) (body reader : List UInt8) :
    readChunks len body reader =
      if len - body.length ≤ reader.length then
        (.ok (body ++ reader.take (len - body.length)), reader.drop (len - body.length))
      else (.error (.io .unexpectedEof), []) := by
  fun_induction readChunks len body reader with
  | case1 body reader hlen want e rest hread =>
    obtain ⟨hshort, rfl, rfl⟩ := readExact_eq_error hread
    rw [if_neg]
    simp only [want] at hshort
    omega
  | case2 body reader hlen want bytes rest hread ih =>
    obtain ⟨hwant, rfl⟩ := readExact_eq_ok hread
    have hle : bytes.length ≤ len - body.length := by
      simp only [hwant, want]
      omega
    have hleft : len - (body ++ bytes).length = len - body.length - bytes.length := by
      rw [List.length_append]
      omega
    have hfits : len - body.length - bytes.length ≤ rest.length ↔
        len - body.length ≤ (bytes ++ rest).length := by
      rw [List.length_append]
      omega
    rw [ih, hleft, if_congr hfits rfl rfl, List.take_append, List.take_of_length_le hle,
      List.drop_append, List.drop_eq_nil_of_le hle, List.append_assoc, List.nil_append]
  | case3 body reader hlen =>
    have hzero : len - body.length = 0 := by omega
    simp [hzero]

/-- **The chunked loop reads the whole length**, as one `read_exact` does. -/
theorem readBody_eq (len : ℕ) : readBody len = readExact len := by
  funext reader
  simp [readBody, readChunks_eq, readExact]

/-! ### Frames as a code -/

theorem length_toBeBytes (n : UInt32) : (toBeBytes n).length = 4 := rfl

theorem fromBeBytes_toBeBytes (n : UInt32) : fromBeBytes (toBeBytes n) = n := by
  apply UInt32.toNat_inj.mp
  have hlt := n.toNat_lt
  simp only [fromBeBytes, toBeBytes, List.map_cons, List.map_nil, List.foldl_cons, List.foldl_nil,
    UInt8.toNat_ofNat', UInt32.toNat_ofNat']
  omega

variable {T : Type} {encode : T → Except Error (List UInt8)} {decode : List UInt8 → Except Error T}

/-- The message has an encoding that a frame may hold. -/
def Fits (encode : T → Except Error (List UInt8)) (message : T) : Prop :=
  ∃ body, encode message = .ok body ∧ body.length ≤ maxFrameBytes

/-- What `write_frame` writes. -/
def frame (encode : T → Except Error (List UInt8)) (message : T) : List UInt8 :=
  (writeFrame encode [] message).2

/-- **A frame is its body's length and its body**, at the end of what is there. -/
theorem writeFrame_eq {message : T} {body : List UInt8} (hbody : encode message = .ok body)
    (hlen : body.length ≤ maxFrameBytes) (writer : List UInt8) :
    writeFrame encode writer message =
      (.ok (), writer ++ toBeBytes (UInt32.ofNat body.length) ++ body) := by
  have hlt : body.length < 2 ^ 32 := by
    unfold maxFrameBytes at hlen
    omega
  rw [writeFrame, hbody]
  simp only [if_neg (Nat.not_lt.mpr hlen), tryFromUsize, if_pos hlt]

theorem frame_eq {message : T} {body : List UInt8} (hbody : encode message = .ok body)
    (hlen : body.length ≤ maxFrameBytes) :
    frame encode message = toBeBytes (UInt32.ofNat body.length) ++ body := by
  rw [frame, writeFrame_eq hbody hlen, List.nil_append]

/-- What `read_frame` does once it has read the four bytes of a length. -/
theorem readFrame_header (len : UInt32) (reader : List UInt8) :
    readFrame decode (toBeBytes len ++ reader) =
      if len.toNat > maxFrameBytes then
        (.error (.daemon s!"frame too large: {len.toNat} bytes"), reader)
      else
        match readExact len.toNat reader with
        | (.error e, reader) => (.error e, reader)
        | (.ok body, reader) => (decode body, reader) := by
  rw [readFrame, readExact_append (length_toBeBytes len)]
  simp only [fromBeBytes_toBeBytes, readBody_eq]

theorem toNat_length {body : List UInt8} (hlen : body.length ≤ maxFrameBytes) :
    (UInt32.ofNat body.length).toNat = body.length := by
  unfold maxFrameBytes at hlen
  rw [UInt32.toNat_ofNat', Nat.mod_eq_of_lt (by omega)]

/-- **Frames are a self-delimiting code**, for the messages whose encodings fit. -/
theorem frames_delimited_of_fits
    (hcodec : ∀ m body, encode m = .ok body → body.length ≤ maxFrameBytes → decode body = .ok m) :
    Delimits (readFrame decode) (frame encode) (Fits encode) (.io .unexpectedEof) where
  whole := by
    rintro m tail ⟨body, hbody, hlen⟩
    rw [frame_eq hbody hlen, List.append_assoc, readFrame_header, toNat_length hlen,
      if_neg (by omega), readExact_append rfl]
    simp only [hcodec m body hbody hlen]
  cut := by
    rintro m n ⟨body, hbody, hlen⟩ hn
    rw [frame_eq hbody hlen, List.length_append, length_toBeBytes] at hn
    rw [frame_eq hbody hlen, List.take_append, length_toBeBytes]
    by_cases hheader : n < 4
    · -- The cut is in the length.
      have hshort : ((toBeBytes (UInt32.ofNat body.length)).take n ++ body.take (n - 4)).length <
          4 := by
        simp only [List.length_append, List.length_take, length_toBeBytes]
        omega
      rw [readFrame, readExact_short hshort]
    · -- The cut is in the body.
      rw [List.take_of_length_le (by rw [length_toBeBytes]; omega), readFrame_header,
        toNat_length hlen, if_neg (by omega), readExact_short]
      rw [List.length_take]
      omega
  empty := by
    rw [readFrame, readExact_short (by simp)]

/-- So they are when every encoding is decoded. -/
theorem frames_delimited (hcodec : ∀ m body, encode m = .ok body → decode body = .ok m) :
    Delimits (readFrame decode) (frame encode) (Fits encode) (.io .unexpectedEof) :=
  frames_delimited_of_fits fun m body hbody _ => hcodec m body hbody

/-! ### Streams of frames -/

/-- `write_frame` for one message after another, up to the first error. -/
def writeFrames (encode : T → Except Error (List UInt8)) (writer : List UInt8) :
    List T → Except Error Unit × List UInt8
  | [] => (.ok (), writer)
  | message :: messages =>
    match writeFrame encode writer message with
    | (.error e, writer) => (.error e, writer)
    | (.ok (), writer) => writeFrames encode writer messages

/-- Messages that fit are written as their frames, one after another. -/
theorem writeFrames_eq {messages : List T} (hfits : ∀ m ∈ messages, Fits encode m)
    (writer : List UInt8) :
    writeFrames encode writer messages = (.ok (), writer ++ messages.flatMap (frame encode)) := by
  induction messages generalizing writer with
  | nil => simp [writeFrames]
  | cons m messages ih =>
    obtain ⟨body, hbody, hlen⟩ := hfits m List.mem_cons_self
    have hrest := ih fun m' hm' => hfits m' (List.mem_cons_of_mem _ hm')
    rw [writeFrames, writeFrame_eq hbody hlen]
    simp only [hrest, List.flatMap_cons, frame_eq hbody hlen, List.append_assoc]

/-- **Framing round trip.** Messages that fit are written, and read back whatever follows them,
which is left. From a stream that is cut, the messages whose frames lie before the cut are read
back, and then the end of the stream is reported. A body above the limit is refused with nothing
written, and a length above it with nothing read but the length. -/
theorem framing_round_trip (hcodec : ∀ m body, encode m = .ok body → decode body = .ok m) :
    (∀ messages : List T, (∀ m ∈ messages, Fits encode m) →
      ∃ stream, writeFrames encode [] messages = (.ok (), stream) ∧
        (∀ tail, readMany (readFrame decode) messages.length (stream ++ tail) =
          (.ok messages, tail)) ∧
        ∀ n, ∃ complete rest left, messages = complete ++ rest ∧
          readMany (readFrame decode) complete.length (stream.take n) = (.ok complete, left) ∧
          (readFrame decode left).1 = .error (.io .unexpectedEof) ∧
          (∃ before, writeFrames encode [] complete = (.ok (), before) ∧ before.length ≤ n) ∧
            ∀ m ∈ rest.head?, ∃ after,
              writeFrames encode [] (complete ++ [m]) = (.ok (), after) ∧ n < after.length) ∧
    (∀ message body writer, encode message = .ok body → maxFrameBytes < body.length →
      writeFrame encode writer message =
        (.error (.daemon s!"frame too large: {body.length} bytes (max {maxFrameBytes})"),
          writer)) ∧
    ∀ header rest : List UInt8, header.length = 4 → maxFrameBytes < (fromBeBytes header).toNat →
      readFrame decode (header ++ rest) =
        (.error (.daemon s!"frame too large: {(fromBeBytes header).toNat} bytes"), rest) := by
  have hd := frames_delimited hcodec
  refine ⟨fun messages hfits => ?_, fun message body writer hbody hlen => ?_,
    fun header rest hheader hlen => ?_⟩
  · refine ⟨messages.flatMap (frame encode), by rw [writeFrames_eq hfits, List.nil_append],
      fun tail => hd.readMany_flatMap tail hfits, fun n => ?_⟩
    obtain ⟨complete, rest, left, rfl, hread, heof, hle, hnext⟩ := hd.readMany_take hfits n
    have hcomplete : ∀ m ∈ complete, Fits encode m :=
      fun m hm => hfits m (List.mem_append_left _ hm)
    refine ⟨complete, rest, left, rfl, hread, heof, ⟨_, writeFrames_eq hcomplete [], hle⟩, ?_⟩
    intro m hm
    have hwith : ∀ m' ∈ complete ++ [m], Fits encode m' := by
      intro m' hm'
      rcases List.mem_append.mp hm' with hm' | hm'
      · exact hcomplete m' hm'
      · obtain rfl := List.mem_singleton.mp hm'
        exact hfits _ (List.mem_append_right _ (List.mem_of_mem_head? hm))
    exact ⟨_, writeFrames_eq hwith [], hnext m hm⟩
  · rw [writeFrame, hbody]
    simp only [if_pos hlen]
  · rw [readFrame, readExact_append hheader]
    simp only [if_pos hlen]

/-- `postcard::to_stdvec` of a `bool`. -/
def encodeBool (b : Bool) : Except Error (List UInt8) := .ok [if b then 1 else 0]

/-- `postcard::from_bytes` of a `bool`. -/
def decodeBool : List UInt8 → Except Error Bool
  | 0 :: _ => .ok false
  | 1 :: _ => .ok true
  | _ => .error .codec

theorem decodeBool_encodeBool (b : Bool) (body : List UInt8) (h : encodeBool b = .ok body) :
    decodeBool body = .ok b := by
  cases h
  cases b <;> rfl

/-- Two truth values, and a byte after them. -/
theorem framing_round_trip_bools :
    readMany (readFrame decodeBool) 2 ((writeFrames encodeBool [] [true, false]).2 ++ [9]) =
      (.ok [true, false], [9]) := by
  obtain ⟨stream, hwrite, hread, -⟩ := (framing_round_trip decodeBool_encodeBool).1 [true, false]
    fun b _ => ⟨_, rfl, by simp [maxFrameBytes]⟩
  rw [hwrite]
  exact hread [9]

end Semisweet.Protocol
