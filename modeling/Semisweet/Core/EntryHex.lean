import Semisweet.Core.Newtype

/-!
# Entry ids as text

`EntryId` is displayed as thirty-two lowercase hex digits and read back by
`EntryId::from_hex` (`src/newtype.rs`). The text names the entry's file in the disk store,
and is its id in turbopuffer, whose answers are read back.

`from_hex` goes through the bytes of the text two at a time and reads each pair with
`u8::from_str_radix`, which takes digits of either case and, in front, a plus sign. What
`Display` writes it reads back (`fromHex_toHex`). It reads nothing else but the same text in
the other case, and text with plus signs (`fromHex_spec`).
-/

namespace Semisweet.Core

/-- The value of a hex digit. -/
def hexValue (byte : UInt8) : Option ℕ :=
  let n := byte.toNat
  if 0x30 ≤ n ∧ n ≤ 0x39 then some (n - 0x30)
  else if 0x61 ≤ n ∧ n ≤ 0x66 then some (n - 0x61 + 10)
  else if 0x41 ≤ n ∧ n ≤ 0x46 then some (n - 0x41 + 10)
  else none

/-- `u8::from_str_radix` of two bytes, in base 16. -/
def fromStrRadix (a b : UInt8) : Option UInt8 :=
  if a = 0x2B then (hexValue b).map UInt8.ofNat
  else do
    let high ← hexValue a
    let low ← hexValue b
    some (UInt8.ofNat (high * 16 + low))

/-- The loop of `from_hex`, over pairs of bytes. -/
def fromPairs : List UInt8 → Option (List UInt8)
  | a :: b :: rest => do
    let byte ← fromStrRadix a b
    let bytes ← fromPairs rest
    some (byte :: bytes)
  | _ => some []

/-- Text in lowercase, of ASCII. -/
theorem toList_toLower (s : String) : s.toLower.toList = s.toList.map Char.toLower :=
  String.toList_map

namespace EntryId

/-- `EntryId::from_hex`. -/
def fromHex (hex : String) : Option EntryId :=
  if (asBytes hex).length ≠ 32 then none
  else
    match fromPairs (asBytes hex) with
    | some bytes => if h : bytes.toArray.size = 16 then some ⟨⟨bytes.toArray, h⟩⟩ else none
    | none => none

/-- The hex digits of a byte. -/
def hexDigits (byte : UInt8) : List Char :=
  [Nat.digitChar (byte.toNat / 16), Nat.digitChar (byte.toNat % 16)]

/-- `EntryId`'s `Display`. -/
def toHex (id : EntryId) : String := String.ofList (id.bytes.toList.flatMap hexDigits)

/-- A hex digit is one byte, which has its value, and is not a plus sign. -/
theorem hexDigit_byte : ∀ n < 16, ∃ byte, String.utf8EncodeChar (Nat.digitChar n) = [byte] ∧
    hexValue byte = some n ∧ byte ≠ 0x2B := by
  have h : ∀ n < 16, let byte := UInt8.ofNat (Nat.digitChar n).toNat
      String.utf8EncodeChar (Nat.digitChar n) = [byte] ∧ hexValue byte = some n ∧
        byte ≠ 0x2B := by
    decide
  exact fun n hn => ⟨_, h n hn⟩

/-- The digits of a byte are read back. -/
theorem fromPairs_hexDigits (byte : UInt8) (rest : List UInt8) :
    fromPairs ((hexDigits byte).flatMap String.utf8EncodeChar ++ rest) =
      (fromPairs rest).map (byte :: ·) := by
  have hlt := byte.toNat_lt
  obtain ⟨a, ha, hav, haplus⟩ := hexDigit_byte (byte.toNat / 16) (by omega)
  obtain ⟨b, hb, hbv, -⟩ := hexDigit_byte (byte.toNat % 16) (by omega)
  have hsum : byte.toNat / 16 * 16 + byte.toNat % 16 = byte.toNat := by omega
  simp only [hexDigits, List.flatMap_cons, ha, hb, List.flatMap_nil, List.append_nil,
    List.cons_append, List.nil_append, fromPairs, fromStrRadix, haplus, if_false, hav, hbv,
    Option.bind_eq_bind, Option.bind_some, hsum, UInt8.ofNat_toNat]
  cases fromPairs rest <;> rfl

theorem fromPairs_flatMap (bytes : List UInt8) :
    fromPairs ((bytes.flatMap hexDigits).flatMap String.utf8EncodeChar) = some bytes := by
  induction bytes with
  | nil => rfl
  | cons byte bytes ih =>
    rw [List.flatMap_cons, List.flatMap_append, fromPairs_hexDigits, ih, Option.map_some]

theorem length_flatMap_hexDigits (bytes : List UInt8) :
    ((bytes.flatMap hexDigits).flatMap String.utf8EncodeChar).length = 2 * bytes.length := by
  induction bytes with
  | nil => rfl
  | cons byte bytes ih =>
    have hlt := byte.toNat_lt
    obtain ⟨a, ha, -⟩ := hexDigit_byte (byte.toNat / 16) (by omega)
    obtain ⟨b, hb, -⟩ := hexDigit_byte (byte.toNat % 16) (by omega)
    simp only [List.flatMap_cons, List.flatMap_append, List.length_append, ih, hexDigits, ha, hb,
      List.flatMap_nil, List.length_cons, List.length_nil]
    omega

/-- **What is displayed is read back.** -/
theorem fromHex_toHex (id : EntryId) : fromHex id.toHex = some id := by
  obtain ⟨bytes⟩ := id
  have hbytes : asBytes (toHex ⟨bytes⟩) =
      (bytes.toList.flatMap hexDigits).flatMap String.utf8EncodeChar := by
    simp [asBytes, toHex]
  have hlen : (asBytes (toHex ⟨bytes⟩)).length = 32 := by
    rw [hbytes, length_flatMap_hexDigits, Vector.length_toList]
  rw [fromHex, if_neg (by simp [hlen]), hbytes, fromPairs_flatMap]
  simp [Vector.toList]

/-- Different ids are displayed differently. -/
theorem toHex_injective : Function.Injective toHex := by
  intro a b h
  have ha := fromHex_toHex a
  rw [h, fromHex_toHex] at ha
  exact (Option.some.inj ha).symm

/-- The characters of a displayed id are hex digits. -/
theorem mem_toHex {id : EntryId} {c : Char} (h : c ∈ id.toHex.toList) :
    ∃ n < 16, c = Nat.digitChar n := by
  simp only [toHex, String.toList_ofList, List.mem_flatMap, hexDigits, List.mem_cons,
    List.not_mem_nil, or_false] at h
  obtain ⟨byte, -, rfl | rfl⟩ := h
  · exact ⟨_, by have := byte.toNat_lt; omega, rfl⟩
  · exact ⟨_, Nat.mod_lt _ (by decide), rfl⟩

/-! ### What is read -/

/-- A hex digit, of either case. -/
def isHexDigit (c : Char) : Bool :=
  ('0' ≤ c && c ≤ '9') || ('a' ≤ c && c ≤ 'f') || ('A' ≤ c && c ≤ 'F')

/-- Two characters at a time, the second a hex digit, the first one or a plus sign. -/
def isPairs : List Char → Bool
  | a :: b :: rest => (isHexDigit a || a == '+') && isHexDigit b && isPairs rest
  | rest => rest.isEmpty

/-- Thirty-two hex digits. -/
def isHexText (text : String) : Bool :=
  text.toList.length == 32 && text.toList.all isHexDigit

/-- Thirty-two characters in pairs, with a plus sign. -/
def isSigned (text : String) : Bool :=
  text.toList.length == 32 && isPairs text.toList && text.toList.contains '+'

/-- A hex digit is one byte, which is not a plus sign, and its value is that of the lowercase
digit. -/
theorem isHexDigit_byte {c : Char} (h : isHexDigit c = true) : ∃ byte n,
    String.utf8EncodeChar c = [byte] ∧ byte ≠ 0x2B ∧ hexValue byte = some n ∧ n < 16 ∧
      Nat.digitChar n = c.toLower := by
  have hascii : ∀ k < 103, isHexDigit (Char.ofNat k) = true → ∃ n < 16,
      String.utf8EncodeChar (Char.ofNat k) = [UInt8.ofNat k] ∧ UInt8.ofNat k ≠ 0x2B ∧
        hexValue (UInt8.ofNat k) = some n ∧ Nat.digitChar n = (Char.ofNat k).toLower := by
    decide +kernel
  have hlt : c.toNat < 103 := by
    simp only [isHexDigit, Bool.or_eq_true, Bool.and_eq_true, decide_eq_true_eq, Char.le_def,
      UInt32.le_iff_toNat_le] at h
    change c.val.toNat < 103
    have h9 : '9'.val.toNat = 57 := rfl
    have hf : 'f'.val.toNat = 102 := rfl
    have hF : 'F'.val.toNat = 70 := rfl
    omega
  obtain ⟨n, hn, hrest⟩ := hascii c.toNat hlt (by rwa [Char.ofNat_toNat])
  rw [Char.ofNat_toNat] at hrest
  exact ⟨_, n, hrest.1, hrest.2.1, hrest.2.2.1, hn, hrest.2.2.2⟩

/-- A byte below `0x80` is a character of its own. -/
theorem eq_of_mem_utf8EncodeChar {c : Char} {byte : UInt8} (h : byte ∈ String.utf8EncodeChar c)
    (hascii : byte < 0x80) : String.utf8EncodeChar c = [byte] ∧ c = Char.ofNat byte.toNat := by
  have hlt : byte.toNat < 128 := UInt8.lt_iff_toNat_lt.mp hascii
  unfold String.utf8EncodeChar at h ⊢
  simp only at h ⊢
  split at h
  · rename_i hc
    obtain rfl := List.mem_singleton.mp h
    have hsmall : c.val.toNat < 256 := by omega
    rw [if_pos hc, UInt8.toNat_ofNat_of_lt' hsmall]
    exact ⟨rfl, (Char.ofNat_toNat c).symm⟩
  · -- Every byte of a longer encoding has its top bit set.
    split at h
    · simp only [List.mem_cons, List.not_mem_nil, or_false, ← UInt8.toNat_inj,
        UInt8.toNat_ofNat'] at h
      omega
    · split at h
      · simp only [List.mem_cons, List.not_mem_nil, or_false, ← UInt8.toNat_inj,
          UInt8.toNat_ofNat'] at h
        omega
      · simp only [List.mem_cons, List.not_mem_nil, or_false, ← UInt8.toNat_inj,
          UInt8.toNat_ofNat'] at h
        omega

/-- Text whose bytes are all below `0x80` has a character for each. -/
theorem eq_map_of_ascii {text : List Char}
    (h : ∀ byte ∈ text.flatMap String.utf8EncodeChar, byte < 0x80) :
    text = (text.flatMap String.utf8EncodeChar).map fun byte => Char.ofNat byte.toNat := by
  induction text with
  | nil => rfl
  | cons c text ih =>
    rw [List.flatMap_cons] at h ⊢
    obtain ⟨byte, hbyte⟩ := List.exists_mem_of_ne_nil _ (String.utf8EncodeChar_ne_nil (c := c))
    obtain ⟨hone, hc⟩ := eq_of_mem_utf8EncodeChar hbyte (h byte (List.mem_append_left _ hbyte))
    rw [hone, List.map_append, List.map_singleton, ← hc, List.singleton_append,
      ← ih fun byte hb => h byte (List.mem_append_right _ hb)]

/-- A byte with a value is a hex digit. -/
theorem isHexDigit_of_hexValue {byte : UInt8} {n : ℕ} (h : hexValue byte = some n) :
    byte < 0x80 ∧ isHexDigit (Char.ofNat byte.toNat) = true := by
  have hall : ∀ k < 256, (hexValue (UInt8.ofNat k)).isSome →
      k < 128 ∧ isHexDigit (Char.ofNat k) = true := by
    decide +kernel
  obtain ⟨hlt, hdigit⟩ := hall byte.toNat byte.toNat_lt (by rw [UInt8.ofNat_toNat, h]; rfl)
  exact ⟨UInt8.lt_iff_toNat_lt.mpr hlt, hdigit⟩

/-- What `from_str_radix` accepts of two bytes. -/
theorem fromStrRadix_eq_some {a b byte : UInt8} (h : fromStrRadix a b = some byte) :
    (a = 0x2B ∨ ∃ n, hexValue a = some n) ∧ ∃ n, hexValue b = some n := by
  unfold fromStrRadix at h
  split at h
  · rename_i ha
    obtain ⟨n, hn, -⟩ := Option.map_eq_some_iff.mp h
    exact ⟨.inl ha, n, hn⟩
  · obtain ⟨high, hhigh, h⟩ := Option.bind_eq_some_iff.mp h
    obtain ⟨low, hlow, -⟩ := Option.bind_eq_some_iff.mp h
    exact ⟨.inr ⟨high, hhigh⟩, low, hlow⟩

/-- What the loop accepts, of whole pairs. -/
theorem isPairs_of_fromPairs {bytes values : List UInt8} (h : fromPairs bytes = some values)
    (heven : bytes.length % 2 = 0) : (∀ byte ∈ bytes, byte < 0x80) ∧
      isPairs (bytes.map fun byte => Char.ofNat byte.toNat) = true := by
  induction bytes using fromPairs.induct generalizing values with
  | case1 a b rest ih =>
    obtain ⟨byte, hbyte, h⟩ := Option.bind_eq_some_iff.mp h
    obtain ⟨bytes, hbytes, -⟩ := Option.bind_eq_some_iff.mp h
    obtain ⟨hascii, hpairs⟩ := ih hbytes (by simp only [List.length_cons] at heven; omega)
    obtain ⟨ha, n, hb⟩ := fromStrRadix_eq_some hbyte
    obtain ⟨hblt, hbdigit⟩ := isHexDigit_of_hexValue hb
    have hfirst : a < 0x80 ∧
        (isHexDigit (Char.ofNat a.toNat) || Char.ofNat a.toNat == '+') = true := by
      rcases ha with rfl | ⟨m, ha⟩
      · decide
      · obtain ⟨halt, hadigit⟩ := isHexDigit_of_hexValue ha
        exact ⟨halt, by rw [hadigit, Bool.true_or]⟩
    refine ⟨?_, ?_⟩
    · simpa [hfirst.1, hblt] using hascii
    · rw [List.map_cons, List.map_cons, isPairs, hfirst.2, hbdigit, hpairs]
      rfl
  | case2 rest hrest =>
    match rest with
    | [] => exact ⟨by simp, rfl⟩
    | [_] => simp at heven
    | a :: b :: rest => exact absurd rfl (hrest a b rest)

/-- The digits of a byte that was read from two. -/
theorem hexDigits_ofNat {m n : ℕ} (hm : m < 16) (hn : n < 16) :
    hexDigits (UInt8.ofNat (m * 16 + n)) = [Nat.digitChar m, Nat.digitChar n] := by
  have hbyte : (UInt8.ofNat (m * 16 + n)).toNat = m * 16 + n :=
    UInt8.toNat_ofNat_of_lt' (by simp only [UInt8.size]; omega)
  have hhigh : (m * 16 + n) / 16 = m := by omega
  have hlow : (m * 16 + n) % 16 = n := by omega
  rw [hexDigits, hbyte, hhigh, hlow]

/-- What it makes of pairs: half as many bytes, and without a plus sign they are displayed as the
text, in lowercase. -/
theorem fromPairs_of_isPairs {text : List Char} (h : isPairs text = true) :
    ∃ bytes, fromPairs (text.flatMap String.utf8EncodeChar) = some bytes ∧
      2 * bytes.length = text.length ∧
        (text.flatMap String.utf8EncodeChar).length = text.length ∧
          ('+' ∉ text → bytes.flatMap hexDigits = text.map Char.toLower) := by
  induction text using isPairs.induct with
  | case1 a b rest ih =>
    simp only [isPairs, Bool.and_eq_true, Bool.or_eq_true, beq_iff_eq] at h
    obtain ⟨⟨ha, hb⟩, hrest⟩ := h
    obtain ⟨bytes, hread, hhalf, hlen, hdigits⟩ := ih hrest
    obtain ⟨low, n, hlow, -, hlowv, hn, hnlower⟩ := isHexDigit_byte hb
    rcases ha with ha | rfl
    · obtain ⟨high, m, hhigh, hplus, hhighv, hm, hmlower⟩ := isHexDigit_byte ha
      refine ⟨UInt8.ofNat (m * 16 + n) :: bytes, ?_, ?_, ?_, fun hno => ?_⟩
      · simp [hhigh, hlow, fromPairs, fromStrRadix, hplus, hhighv, hlowv, hread]
      · simp only [List.length_cons]
        omega
      · simp [hhigh, hlow, hlen]
      · simp only [List.mem_cons, not_or] at hno
        rw [List.flatMap_cons, hexDigits_ofNat hm hn, hmlower, hnlower, hdigits hno.2.2]
        rfl
    · -- A plus sign is skipped.
      have hplus : String.utf8EncodeChar '+' = [0x2B] := rfl
      refine ⟨UInt8.ofNat n :: bytes, ?_, ?_, ?_, fun hno => by simp at hno⟩
      · simp [hplus, hlow, fromPairs, fromStrRadix, hlowv, hread]
      · simp only [List.length_cons]
        omega
      · simp [hplus, hlow, hlen]
  | case2 rest hrest =>
    match rest with
    | [] => exact ⟨[], rfl, rfl, rfl, by simp⟩
    | [_] => simp [isPairs] at h
    | a :: b :: rest => exact absurd rfl (hrest a b rest)

/-- **Thirty-two characters in pairs are read**, and without a plus sign they are the text of what
is read, in either case. -/
theorem fromHex_of_isPairs {text : String} (hlen : text.toList.length = 32)
    (h : isPairs text.toList = true) :
    ∃ id, fromHex text = some id ∧ ('+' ∉ text.toList → id.toHex = text.toLower) := by
  obtain ⟨bytes, hread, hhalf, hbytes, hdigits⟩ := fromPairs_of_isPairs h
  have hsize : bytes.toArray.size = 16 := by
    rw [List.size_toArray]
    omega
  refine ⟨⟨⟨bytes.toArray, hsize⟩⟩, ?_, fun hno => ?_⟩
  · rw [fromHex, if_neg (by rw [asBytes, hbytes, hlen]; decide), asBytes, hread]
    simp [hsize]
  · rw [← String.toList_inj, toList_toLower, ← hdigits hno, toHex, String.toList_ofList]
    rfl

/-- **Nothing else is read.** -/
theorem isPairs_of_fromHex {text : String} {id : EntryId} (h : fromHex text = some id) :
    text.toList.length = 32 ∧ isPairs text.toList = true := by
  unfold fromHex at h
  split at h
  · simp at h
  · rename_i hlen
    rw [not_not] at hlen
    cases hread : fromPairs (asBytes text) with
    | none => simp [hread] at h
    | some bytes =>
      obtain ⟨hascii, hpairs⟩ := isPairs_of_fromPairs hread (by rw [hlen])
      have htext : text.toList = (asBytes text).map fun byte => Char.ofNat byte.toNat :=
        eq_map_of_ascii hascii
      rw [← htext] at hpairs
      exact ⟨by rw [htext, List.length_map, hlen], hpairs⟩

/-- Without a plus sign, pairs are hex digits. -/
theorem isPairs_eq_all {text : List Char} (hplus : '+' ∉ text) (heven : text.length % 2 = 0) :
    isPairs text = text.all isHexDigit := by
  induction text using isPairs.induct with
  | case1 a b rest ih =>
    simp only [List.mem_cons, not_or] at hplus
    have hrest := ih hplus.2.2 (by simp only [List.length_cons] at heven; omega)
    have ha : (a == '+') = false := beq_eq_false_iff_ne.mpr (Ne.symm hplus.1)
    rw [isPairs, ha, hrest, Bool.or_false, List.all_cons, List.all_cons, Bool.and_assoc]
  | case2 rest hrest =>
    match rest with
    | [] => rfl
    | [_] => simp at heven
    | a :: b :: rest => exact absurd rfl (hrest a b rest)

/-- Hex text is thirty-two characters in pairs, without a plus sign. -/
theorem isHexText_iff {text : String} : isHexText text = true ↔
    (text.toList.length = 32 ∧ isPairs text.toList = true) ∧ '+' ∉ text.toList := by
  simp only [isHexText, Bool.and_eq_true, beq_iff_eq]
  constructor
  · rintro ⟨hlen, hall⟩
    have hplus : '+' ∉ text.toList := fun hmem =>
      absurd (List.all_eq_true.mp hall _ hmem) (by decide)
    exact ⟨⟨hlen, by rw [isPairs_eq_all hplus (by rw [hlen]), hall]⟩, hplus⟩
  · rintro ⟨⟨hlen, hpairs⟩, hplus⟩
    exact ⟨hlen, by rw [← isPairs_eq_all hplus (by rw [hlen]), hpairs]⟩

/-- **Exactly the texts of an id are read as it, unless the text has a plus sign that
`from_str_radix` skips.** What is displayed has none. -/
theorem fromHex_spec (text : String) :
    ((∀ id, fromHex text = some id ↔ isHexText text = true ∧ text.toLower = id.toHex) ↔
      isSigned text = false) ∧
    ∀ id : EntryId, fromHex id.toHex = some id := by
  refine ⟨?_, fromHex_toHex⟩
  have hsigned : isSigned text = true ↔
      (text.toList.length = 32 ∧ isPairs text.toList = true) ∧ '+' ∈ text.toList := by
    simp [isSigned]
  rw [← Bool.not_eq_true, hsigned]
  constructor
  · rintro hall ⟨⟨hlen, hpairs⟩, hplus⟩
    obtain ⟨id, hread, -⟩ := fromHex_of_isPairs hlen hpairs
    exact (isHexText_iff.mp ((hall id).mp hread).1).2 hplus
  · intro hno id
    constructor
    · intro hread
      have hpairs := isPairs_of_fromHex hread
      have hplus : '+' ∉ text.toList := fun hplus => hno ⟨hpairs, hplus⟩
      obtain ⟨id', hread', hlower⟩ := fromHex_of_isPairs hpairs.1 hpairs.2
      obtain rfl : id' = id := Option.some.inj (hread'.symm.trans hread)
      exact ⟨isHexText_iff.mpr ⟨hpairs, hplus⟩, (hlower hplus).symm⟩
    · rintro ⟨hhex, hlower⟩
      obtain ⟨hpairs, hplus⟩ := isHexText_iff.mp hhex
      obtain ⟨id', hread, hlower'⟩ := fromHex_of_isPairs hpairs.1 hpairs.2
      rw [toHex_injective ((hlower' hplus).trans hlower)] at hread
      exact hread

/-- Sixteen plus signs, each with a digit. -/
def signedText : String := "+f+f+f+f+f+f+f+f+f+f+f+f+f+f+f+f"

/-- **It is read as an id**, though it is no hex text. -/
theorem fromHex_signedText : ¬ ∀ (text : String) (id : EntryId), fromHex text = some id ↔
    isHexText text = true ∧ text.toLower = id.toHex := by
  intro hall
  have hread : fromHex signedText = some ⟨Vector.replicate 16 0x0F⟩ := by decide
  exact absurd ((hall _ _).mp hread).1 (by decide)

end EntryId

end Semisweet.Core
