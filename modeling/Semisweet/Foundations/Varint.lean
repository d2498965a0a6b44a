import Mathlib.Tactic.Common

/-!
# Numbers and lengths in base 128

A number is written in base 128, least significant digit first, one byte a digit, and every
byte but the last has its high bit set (`varint`): a small number is one byte, and a number of
`w` bits at most `⌈w / 7⌉`. Bytes and lists are written with their length in front (`sized`,
`counted`), and what may be missing with one byte that says whether it is there (`maybe`).

What is known of a code here is how long it is.
-/

namespace Semisweet.Foundations

universe u

variable {α : Type u}

/-- A number in base 128, of at most `width` bytes. -/
def varint : (width n : ℕ) → List UInt8
  | 0, _ => []
  | width + 1, n =>
    if n < 128 then [UInt8.ofNat n] else UInt8.ofNat (n % 128 + 128) :: varint width (n / 128)

theorem length_varint_pos (width n : ℕ) : 0 < (varint (width + 1) n).length := by
  rw [varint]
  split <;> simp

/-- A length, of 64 bits. -/
def varintLen (n : ℕ) : List UInt8 := varint 10 n

/-- Bytes, with their number in front. -/
def sized (bytes : List UInt8) : List UInt8 := varintLen bytes.length ++ bytes

/-- A list, with its length in front. -/
def counted (code : α → List UInt8) (as : List α) : List UInt8 :=
  varintLen as.length ++ as.flatMap code

/-- What may be missing. -/
def maybe (code : α → List UInt8) : Option α → List UInt8
  | none => [0]
  | some a => 1 :: code a

theorem length_sized_pos (bytes : List UInt8) : 0 < (sized bytes).length := by
  have : 0 < (varintLen bytes.length).length := length_varint_pos 9 bytes.length
  rw [sized, List.length_append]
  omega

theorem length_counted_pos (code : α → List UInt8) (as : List α) :
    0 < (counted code as).length := by
  have : 0 < (varintLen as.length).length := length_varint_pos 9 as.length
  rw [counted, List.length_append]
  omega

/-- Bytes are no longer than with their number in front. -/
theorem length_le_sized (bytes : List UInt8) : bytes.length ≤ (sized bytes).length := by
  rw [sized, List.length_append]
  omega

/-- Items of a byte or more are no more than the bytes of all, and none has more. -/
theorem length_le_flatMap {code : α → List UInt8} (hpos : ∀ a, 0 < (code a).length)
    (as : List α) :
    as.length ≤ (as.flatMap code).length ∧
      ∀ a ∈ as, (code a).length ≤ (as.flatMap code).length := by
  induction as with
  | nil => simp
  | cons a as ih =>
    have ha := hpos a
    rw [List.flatMap_cons, List.length_append, List.length_cons]
    refine ⟨by omega, fun b hb => ?_⟩
    rcases List.mem_cons.mp hb with rfl | hb
    · omega
    · have := ih.2 b hb
      omega

theorem length_maybe_some (code : α → List UInt8) (a : α) :
    (maybe code (some a)).length = (code a).length + 1 := rfl

theorem length_maybe_pos (code : α → List UInt8) (a : Option α) :
    0 < (maybe code a).length := by
  cases a <;> simp [maybe]

end Semisweet.Foundations
