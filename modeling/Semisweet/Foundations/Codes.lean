import Semisweet.Foundations.Delimited
import Semisweet.Foundations.Varint
import Mathlib.Algebra.Order.Ring.Nat

/-!
# Readers that undo a code

A reader is put together of smaller ones (`Reader.bind`), as the code it reads is put together of
smaller codes. It undoes a code (`Reads`) when three things hold. It takes a whole code off the
front of a stream, and nothing of what follows. What it reads, it reads whatever follows. And
what it read was no shorter than the code of the value, though it may have been longer: a reader
need not insist on the shortest way to write a value.

From the first two, no part of a code is read as a value (`Reads.cut`).

The codes of `Varint` have their readers here: numbers in base 128, which are accepted with
digits they do not need (`readVarint`), bytes and lists with their length in front (`readSized`,
`readCounted`), and what may be missing (`readMaybe`).
-/

namespace Semisweet.Foundations

universe u v w x

variable {α : Type w} {γ : Type x} {β : Type u} {ε : Type v}

/-! ### Readers put together -/

/-- A value, with nothing read. -/
def Reader.ret (a : α) : Reader β ε α := fun s => (.ok a, s)

/-- An error. -/
def Reader.fail (e : ε) : Reader β ε α := fun s => (.error e, s)

/-- Read, and go on with what was read. -/
def Reader.bind (read : Reader β ε α) (next : α → Reader β ε γ) : Reader β ε γ := fun s =>
  match read s with
  | (.error e, s) => (.error e, s)
  | (.ok a, s) => next a s

variable {read : Reader β ε α} {next : α → Reader β ε γ} {s rest tail : List β} {a : α} {c : γ}

@[simp] theorem Reader.ret_apply : (Reader.ret a : Reader β ε α) s = (.ok a, s) := rfl

@[simp] theorem Reader.fail_apply {e : ε} : (Reader.fail e : Reader β ε α) s = (.error e, s) := rfl

theorem Reader.ret_eq_ok {b : α} : Reader.ret a s = ((.ok b, rest) : Except ε α × List β) ↔
    a = b ∧ s = rest := by
  simp

theorem Reader.bind_of_ok (h : read s = (.ok a, rest)) : read.bind next s = next a rest := by
  rw [Reader.bind, h]

/-- **What is read in two parts** is read part by part. -/
theorem Reader.bind_eq_ok :
    read.bind next s = (.ok c, rest) ↔
      ∃ a mid, read s = (.ok a, mid) ∧ next a mid = (.ok c, rest) := by
  unfold Reader.bind
  cases hread : read s with
  | mk result mid => cases result <;> simp

/-- What is read, is read whatever follows. -/
def Steady (read : Reader β ε α) : Prop :=
  ∀ ⦃s a rest⦄ (tail : List β), read s = (.ok a, rest) → read (s ++ tail) = (.ok a, rest ++ tail)

theorem Steady.ret : Steady (Reader.ret a : Reader β ε α) := by
  intro s b rest tail h
  simp only [Reader.ret_apply, Prod.mk.injEq, Except.ok.injEq] at h ⊢
  exact ⟨h.1, by rw [h.2]⟩

theorem Steady.fail {e : ε} : Steady (Reader.fail e : Reader β ε α) := by
  intro s b rest tail h
  simp at h

theorem Steady.bind (hread : Steady read) (hnext : ∀ a, Steady (next a)) :
    Steady (read.bind next) := by
  intro s c rest tail h
  obtain ⟨a, mid, ha, hc⟩ := Reader.bind_eq_ok.mp h
  exact Reader.bind_eq_ok.mpr ⟨a, mid ++ tail, hread tail ha, hnext a tail hc⟩

/-- `read` undoes `code`, on the values that are `good`. -/
structure Reads (read : Reader β ε α) (code : α → List β) (good : α → Prop) : Prop where
  /-- It takes a whole code, and nothing after it. -/
  whole {a : α} (tail : List β) : good a → read (code a ++ tail) = (.ok a, tail)
  /-- What it reads, it reads whatever follows. -/
  steady : Steady read
  /-- What it reads is no shorter than the code. -/
  least {s rest : List β} {a : α} :
    read s = (.ok a, rest) → (code a).length + rest.length ≤ s.length

/-- One value, and then the others. -/
theorem readMany_succ (read : Reader β ε α) (n : ℕ) :
    readMany read (n + 1) =
      read.bind fun a => (readMany read n).bind fun as => .ret (a :: as) := by
  funext s
  rw [readMany, Reader.bind]
  cases read s with
  | mk result mid =>
    cases result with
    | error e => rfl
    | ok a =>
      simp only [Reader.bind]
      cases readMany read n mid with
      | mk result rest => cases result <;> rfl

namespace Reads

variable {code : α → List β} {good : α → Prop}

/-- **No part of a code is read as a value.** -/
theorem cut (h : Reads read code good) {n : ℕ} (hgood : good a) (hn : n < (code a).length) :
    ∃ e, (read ((code a).take n)).1 = .error e := by
  cases hread : read ((code a).take n) with
  | mk result rest =>
    cases result with
    | error e => exact ⟨e, rfl⟩
    | ok b =>
      -- with the missing part it would be read as the whole code is
      have hmore := h.steady ((code a).drop n) hread
      have hwhole := h.whole [] hgood
      rw [List.append_nil] at hwhole
      rw [List.take_append_drop, hwhole, Prod.mk.injEq] at hmore
      have hnil := (List.append_eq_nil_iff.mp hmore.2.symm).2
      rw [List.drop_eq_nil_iff] at hnil
      omega

/-- Several values, one after another. -/
theorem many (h : Reads read code good) (n : ℕ) :
    Reads (readMany read n) (List.flatMap code) fun as => as.length = n ∧ ∀ a ∈ as, good a := by
  induction n with
  | zero =>
    refine ⟨fun {as} tail hgood => ?_, fun s as rest tail hread => ?_, fun {s rest as} hread => ?_⟩
    · obtain rfl := List.length_eq_zero_iff.mp hgood.1
      rfl
    · simp only [readMany, Prod.mk.injEq, Except.ok.injEq] at hread ⊢
      exact ⟨hread.1, by rw [hread.2]⟩
    · simp only [readMany, Prod.mk.injEq, Except.ok.injEq] at hread
      obtain ⟨rfl, rfl⟩ := hread
      simp
  | succ n ih =>
    rw [readMany_succ]
    refine ⟨fun {as} tail hgood => ?_, h.steady.bind fun a => ih.steady.bind fun as => .ret,
      fun {s rest as} hread => ?_⟩
    · obtain ⟨a, as, rfl⟩ := List.exists_cons_of_length_eq_add_one hgood.1
      rw [List.flatMap_cons, List.append_assoc,
        Reader.bind_of_ok (h.whole _ (hgood.2 a List.mem_cons_self)), Reader.bind_of_ok (ih.whole _
          ⟨by simpa using hgood.1, fun b hb => hgood.2 b (List.mem_cons_of_mem _ hb)⟩)]
      rfl
    · obtain ⟨a, mid, ha, hrest⟩ := Reader.bind_eq_ok.mp hread
      obtain ⟨bs, mid', hbs, hret⟩ := Reader.bind_eq_ok.mp hrest
      simp only [Reader.ret_apply, Prod.mk.injEq, Except.ok.injEq] at hret
      obtain ⟨rfl, rfl⟩ := hret
      have hfirst := h.least ha
      have hothers := ih.least hbs
      rw [List.flatMap_cons, List.length_append]
      omega

end Reads

/-! ### Bytes -/

/-- So many items. -/
def readExactly (eof : ε) (n : ℕ) : Reader β ε (List β) := fun s =>
  if n ≤ s.length then (.ok (s.take n), s.drop n) else (.error eof, [])

theorem reads_exactly {eof : ε} (n : ℕ) :
    Reads (readExactly (β := β) eof n) id fun bytes => bytes.length = n where
  whole := by
    rintro bytes tail rfl
    simp [readExactly]
  steady := by
    intro s bytes rest tail h
    unfold readExactly at h ⊢
    split at h
    · rename_i hn
      simp only [Prod.mk.injEq, Except.ok.injEq] at h
      obtain ⟨rfl, rfl⟩ := h
      rw [if_pos (by rw [List.length_append]; omega), List.take_append_of_le_length hn,
        List.drop_append_of_le_length hn]
    · simp at h
  least := by
    intro s rest bytes h
    unfold readExactly at h
    split at h
    · rename_i hn
      simp only [Prod.mk.injEq, Except.ok.injEq] at h
      obtain ⟨rfl, rfl⟩ := h
      simp only [id_eq, List.length_take, List.length_drop]
      omega
    · simp at h

/-- Values with the code of another one, which may have to be refused. -/
theorem Reads.check {read : Reader β ε α} {code : α → List β} {good : α → Prop}
    (h : Reads read code good) (ofCoded : α → Except ε γ) (toCoded : γ → α)
    (hto : ∀ c, ofCoded (toCoded c) = .ok c) (hof : ∀ a c, ofCoded a = .ok c → toCoded c = a) :
    Reads (read.bind fun a s => (ofCoded a, s)) (fun c => code (toCoded c))
      fun c => good (toCoded c) where
  whole := by
    intro c tail hgood
    rw [Reader.bind_of_ok (h.whole tail hgood), hto]
  steady := by
    refine h.steady.bind fun a s c rest tail hc => ?_
    simp only [Prod.mk.injEq] at hc ⊢
    exact ⟨hc.1, by rw [hc.2]⟩
  least := by
    intro s rest c hread
    obtain ⟨a, mid, ha, hc⟩ := Reader.bind_eq_ok.mp hread
    simp only [Prod.mk.injEq] at hc
    obtain ⟨hc, rfl⟩ := hc
    rw [hof a c hc]
    exact h.least ha

/-! ### Numbers and lengths in base 128 -/

/-- A number in base 128, of at most `width` digits, the last of which is at most `last`. -/
def readVarint (bad : ε) (last : ℕ) : ℕ → Reader UInt8 ε ℕ
  | 0, s => (.error bad, s)
  | _ + 1, [] => (.error bad, [])
  | width + 1, byte :: s =>
    if byte.toNat < 128 then
      if width = 0 ∧ last < byte.toNat then (.error bad, s) else (.ok byte.toNat, s)
    else
      match readVarint bad last width s with
      | (.error e, s) => (.error e, s)
      | (.ok n, s) => (.ok (byte.toNat - 128 + 128 * n), s)

section Varint

variable {bad : ε} {last width n : ℕ} {bytes left : List UInt8}

theorem readVarint_append (hlast : last < 128) (hn : n < (last + 1) * 128 ^ width)
    (tail : List UInt8) :
    readVarint bad last (width + 1) (varint (width + 1) n ++ tail) = (.ok n, tail) := by
  induction width generalizing n with
  | zero =>
    have hsmall : n < 128 := by omega
    have hbyte : (UInt8.ofNat n).toNat = n := by
      rw [UInt8.toNat_ofNat', Nat.mod_eq_of_lt (by omega)]
    rw [varint, if_pos hsmall, List.singleton_append, readVarint, hbyte, if_pos hsmall,
      if_neg (by omega)]
  | succ width ih =>
    rw [varint]
    split
    · rename_i hsmall
      have hbyte : (UInt8.ofNat n).toNat = n := by
        rw [UInt8.toNat_ofNat', Nat.mod_eq_of_lt (by omega)]
      rw [List.singleton_append, readVarint, hbyte, if_pos hsmall, if_neg (by omega)]
    · rename_i hlarge
      have hbyte : (UInt8.ofNat (n % 128 + 128)).toNat = n % 128 + 128 := by
        rw [UInt8.toNat_ofNat', Nat.mod_eq_of_lt (by omega)]
      have hrest : n / 128 < (last + 1) * 128 ^ width := by
        rw [Nat.pow_succ, ← Nat.mul_assoc] at hn
        omega
      rw [List.cons_append, readVarint, hbyte, if_neg (by omega), ih hrest]
      simp only [Prod.mk.injEq, Except.ok.injEq, and_true]
      omega

theorem steady_varint : Steady (readVarint bad last width) := by
  intro s n rest tail h
  induction width generalizing s n with
  | zero => cases h
  | succ width ih =>
    cases s with
    | nil => cases h
    | cons byte s =>
      simp only [readVarint, List.cons_append] at h ⊢
      split at h
      · split at h
        · cases h
        · rename_i hsmall hfits
          simp only [Prod.mk.injEq, Except.ok.injEq] at h
          obtain ⟨rfl, rfl⟩ := h
          rw [if_pos hsmall, if_neg hfits]
      · cases hread : readVarint bad last width s with
        | mk result mid =>
          cases result with
          | error e => simp [hread] at h
          | ok m =>
            simp only [hread, Prod.mk.injEq, Except.ok.injEq] at h
            obtain ⟨rfl, rfl⟩ := h
            rw [if_neg ‹_›, ih hread]

/-- No digits are needed beyond those that were read. -/
theorem length_varint_add_le (h : readVarint bad last width bytes = (.ok n, left)) :
    (varint width n).length + left.length ≤ bytes.length := by
  induction width generalizing bytes n with
  | zero => cases h
  | succ width ih =>
    cases bytes with
    | nil => cases h
    | cons byte bytes =>
      simp only [readVarint] at h
      split at h
      · rename_i hsmall
        split at h
        · cases h
        · simp only [Prod.mk.injEq, Except.ok.injEq] at h
          obtain ⟨rfl, rfl⟩ := h
          rw [varint, if_pos hsmall, List.length_singleton, List.length_cons]
          omega
      · cases hread : readVarint bad last width bytes with
        | mk result mid =>
          cases result with
          | error e => simp [hread] at h
          | ok m =>
            simp only [hread, Prod.mk.injEq, Except.ok.injEq] at h
            obtain ⟨rfl, rfl⟩ := h
            have hle := ih hread
            have hbyte := byte.toNat_lt
            have hdiv : (byte.toNat - 128 + 128 * m) / 128 = m := by omega
            rw [varint, List.length_cons]
            split
            · simp only [List.length_singleton]
              omega
            · rw [hdiv, List.length_cons]
              omega

/-- **A number is read back**, if its last digit is not too large. -/
theorem reads_varint (hlast : last < 128) (width : ℕ) :
    Reads (readVarint bad last (width + 1)) (varint (width + 1))
      fun n => n < (last + 1) * 128 ^ width where
  whole tail hn := readVarint_append hlast hn tail
  steady := steady_varint
  least := length_varint_add_le

end Varint

section Lengths

variable {len : Reader UInt8 ε ℕ}

/-- Bytes, with their number in front. -/
def readSized (eof : ε) (len : Reader UInt8 ε ℕ) : Reader UInt8 ε (List UInt8) :=
  len.bind (readExactly eof)

/-- A list, with its length in front. -/
def readCounted (len : Reader UInt8 ε ℕ) (read : Reader UInt8 ε α) : Reader UInt8 ε (List α) :=
  len.bind (readMany read)

/-- A value with its size in front, for any way to read a value of that size. -/
theorem Reads.prefixed {bound : ℕ} (hlen : Reads len varintLen (· < bound)) (size : α → ℕ)
    {read : ℕ → Reader UInt8 ε α} {code : α → List UInt8} {good : α → Prop}
    (hread : ∀ n, Reads (read n) code fun a => size a = n ∧ good a)
    (hsize : ∀ n s a rest, read n s = (.ok a, rest) → size a = n) :
    Reads (len.bind read) (fun a => varintLen (size a) ++ code a)
      fun a => size a < bound ∧ good a where
  whole := by
    intro a tail hgood
    rw [List.append_assoc, Reader.bind_of_ok (hlen.whole _ hgood.1)]
    exact (hread _).whole tail ⟨rfl, hgood.2⟩
  steady := hlen.steady.bind fun n => (hread n).steady
  least := by
    intro s rest a h
    obtain ⟨n, mid, hn, ha⟩ := Reader.bind_eq_ok.mp h
    have hfirst := hlen.least hn
    have hrest := (hread n).least ha
    rw [hsize n mid a rest ha, List.length_append]
    omega

theorem length_of_readExactly {eof : ε} {n : ℕ} {s bytes rest : List β}
    (h : readExactly eof n s = (.ok bytes, rest)) : bytes.length = n := by
  unfold readExactly at h
  split at h
  · simp only [Prod.mk.injEq, Except.ok.injEq] at h
    rw [← h.1, List.length_take]
    omega
  · simp at h

theorem length_of_readMany {read : Reader β ε α} {n : ℕ} {s rest : List β} {as : List α}
    (h : readMany read n s = (.ok as, rest)) : as.length = n := by
  induction n generalizing s as rest with
  | zero =>
    simp only [readMany, Prod.mk.injEq, Except.ok.injEq] at h
    rw [← h.1, List.length_nil]
  | succ n ih =>
    rw [readMany_succ] at h
    obtain ⟨a, mid, -, hrest⟩ := Reader.bind_eq_ok.mp h
    obtain ⟨bs, mid', hbs, hret⟩ := Reader.bind_eq_ok.mp hrest
    simp only [Reader.ret_apply, Prod.mk.injEq, Except.ok.injEq] at hret
    rw [← hret.1, List.length_cons, ih hbs]

/-- **Bytes are read back.** -/
theorem reads_sized (eof : ε) {bound : ℕ} (hlen : Reads len varintLen (· < bound)) :
    Reads (readSized eof len) sized fun bytes => bytes.length < bound := by
  have hread : ∀ n, Reads (readExactly eof n) id
      fun bytes : List UInt8 => bytes.length = n ∧ True := fun n =>
     ⟨fun tail hgood => (reads_exactly n).whole tail hgood.1, (reads_exactly n).steady,
      (reads_exactly n).least⟩
  have h := hlen.prefixed List.length hread fun _ _ _ _ => length_of_readExactly
  exact ⟨fun tail hgood => h.whole tail ⟨hgood, trivial⟩, h.steady, h.least⟩

/-- **A list is read back**, if its items are. -/
theorem reads_counted {bound : ℕ} (hlen : Reads len varintLen (· < bound))
    {read : Reader UInt8 ε α} {code : α → List UInt8} {good : α → Prop}
    (hread : Reads read code good) :
    Reads (readCounted len read) (counted code)
      fun as => as.length < bound ∧ ∀ a ∈ as, good a :=
  hlen.prefixed List.length (fun n => hread.many n) fun _ _ _ _ => length_of_readMany

/-- What may be missing, after the byte that says whether it is there. -/
def readMaybe (there : Reader UInt8 ε Bool) (read : Reader UInt8 ε α) :
    Reader UInt8 ε (Option α) :=
  there.bind fun b => if b then read.bind fun a => .ret (some a) else .ret none

/-- **What may be missing is read back**, if it is when it is there. -/
theorem reads_maybe {there : Reader UInt8 ε Bool}
    (hthere : Reads there (fun b => [if b then 1 else 0]) fun _ => True)
    {read : Reader UInt8 ε α} {code : α → List UInt8} {good : α → Prop}
    (hread : Reads read code good) :
    Reads (readMaybe there read) (maybe code) fun o => ∀ a ∈ o, good a where
  whole := by
    intro o tail hgood
    cases o with
    | none =>
      have h := hthere.whole (a := false) tail trivial
      exact Reader.bind_of_ok h
    | some a =>
      have h := hthere.whole (a := true) (code a ++ tail) trivial
      refine (Reader.bind_of_ok h).trans ?_
      exact Reader.bind_of_ok (hread.whole tail (hgood a rfl))
  steady := by
    refine hthere.steady.bind fun b => ?_
    cases b with
    | false => exact Steady.ret
    | true => exact hread.steady.bind fun a => Steady.ret
  least := by
    intro s rest o h
    obtain ⟨b, mid, hb, ho⟩ := Reader.bind_eq_ok.mp h
    have hfirst := hthere.least hb
    cases b with
    | false =>
      simp only [Bool.false_eq_true, if_false, Reader.ret_apply, Prod.mk.injEq,
        Except.ok.injEq] at ho
      obtain ⟨rfl, rfl⟩ := ho
      simpa [maybe] using hfirst
    | true =>
      obtain ⟨a, mid', ha, hret⟩ := Reader.bind_eq_ok.mp ho
      simp only [Reader.ret_apply, Prod.mk.injEq, Except.ok.injEq] at hret
      obtain ⟨rfl, rfl⟩ := hret
      have hrest := hread.least ha
      rw [length_maybe_some]
      simp only [List.length_singleton] at hfirst
      omega

end Lengths

end Semisweet.Foundations
