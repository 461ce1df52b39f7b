/-
# Big-endian words and two's complement

Four bytes read most significant first are one 32-bit word (`be32`), written
back byte by byte with shifts and masks (`beBytes`), and the two agree on every
word (`be32_beBytes`).  A word read as a signed number is `int32`, and a signed
number converted to a 64-bit unsigned size is `sizeT`: a negative one becomes
larger than `2 ^ 63` (`sizeT_of_neg`), which is how a length check written
against an unsigned bound also refuses negative lengths.

Nothing here is about one format; `Wire.Package` instantiates it.
-/

import Mathlib.Data.Nat.Bitwise
import Mathlib.Tactic.Ring

namespace BigEndian

/-- The word of four bytes, most significant first, as the source writes it. -/
def be32 (b₀ b₁ b₂ b₃ : UInt8) : ℕ :=
  b₀.toNat <<< 24 ||| b₁.toNat <<< 16 ||| b₂.toNat <<< 8 ||| b₃.toNat

/-- The four bytes of a word, most significant first. -/
def beBytes (n : ℕ) : List UInt8 :=
  [UInt8.ofNat (n >>> 24 &&& 0xFF), UInt8.ofNat (n >>> 16 &&& 0xFF),
    UInt8.ofNat (n >>> 8 &&& 0xFF), UInt8.ofNat (n &&& 0xFF)]

/-- A 32-bit word read as a signed number. -/
def int32 (n : ℕ) : ℤ := if n < 2 ^ 31 then n else n - 2 ^ 32

/-- A signed number converted to a 64-bit unsigned size. -/
def sizeT (z : ℤ) : ℕ := (z % 2 ^ 64).toNat

/-- The length is written in four bytes. -/
@[simp] theorem length_beBytes (n : ℕ) : (beBytes n).length = 4 := rfl

/-- The shifted bytes do not overlap, so joining them is adding them. -/
theorem be32_eq (b₀ b₁ b₂ b₃ : UInt8) :
    be32 b₀ b₁ b₂ b₃ =
      b₀.toNat * 2 ^ 24 + b₁.toNat * 2 ^ 16 + b₂.toNat * 2 ^ 8 + b₃.toNat := by
  have h₁ := b₁.toNat_lt
  have h₂ := b₂.toNat_lt
  have h₃ := b₃.toNat_lt
  unfold be32
  rw [← Nat.shiftLeft_add_eq_or_of_lt (b := b₁.toNat <<< 16) (i := 24) (by
      rw [Nat.shiftLeft_eq]; omega)]
  have e₁ : b₀.toNat <<< 24 + b₁.toNat <<< 16 = (b₀.toNat * 2 ^ 8 + b₁.toNat) <<< 16 := by
    simp only [Nat.shiftLeft_eq]; ring
  rw [e₁, ← Nat.shiftLeft_add_eq_or_of_lt (b := b₂.toNat <<< 8) (i := 16) (by
      rw [Nat.shiftLeft_eq]; omega)]
  have e₂ : (b₀.toNat * 2 ^ 8 + b₁.toNat) <<< 16 + b₂.toNat <<< 8 =
      ((b₀.toNat * 2 ^ 8 + b₁.toNat) * 2 ^ 8 + b₂.toNat) <<< 8 := by
    simp only [Nat.shiftLeft_eq]; ring
  rw [e₂, ← Nat.shiftLeft_add_eq_or_of_lt (b := b₃.toNat) (i := 8) (by omega)]
  simp only [Nat.shiftLeft_eq]
  ring

/-- Four bytes are a number below 2^32. -/
theorem be32_lt (b₀ b₁ b₂ b₃ : UInt8) : be32 b₀ b₁ b₂ b₃ < 2 ^ 32 := by
  have h₀ := b₀.toNat_lt
  have h₁ := b₁.toNat_lt
  have h₂ := b₂.toNat_lt
  have h₃ := b₃.toNat_lt
  rw [be32_eq]
  omega

/-- A masked byte of a word is a byte. -/
theorem toNat_ofNat_and (n : ℕ) : (UInt8.ofNat (n &&& 0xFF)).toNat = n % 2 ^ 8 := by
  rw [show (0xFF : ℕ) = 2 ^ 8 - 1 by norm_num, Nat.and_two_pow_sub_one_eq_mod,
    UInt8.toNat_ofNat']
  omega

/-- **Reading back what was written gives the word.** -/
theorem be32_beBytes {n : ℕ} (hn : n < 2 ^ 32) :
    be32 (UInt8.ofNat (n >>> 24 &&& 0xFF)) (UInt8.ofNat (n >>> 16 &&& 0xFF))
      (UInt8.ofNat (n >>> 8 &&& 0xFF)) (UInt8.ofNat (n &&& 0xFF)) = n := by
  rw [be32_eq]
  simp only [toNat_ofNat_and, Nat.shiftRight_eq_div_pow]
  omega

/-- Writing back what was read gives the bytes. -/
theorem beBytes_be32 (b₀ b₁ b₂ b₃ : UInt8) :
    beBytes (be32 b₀ b₁ b₂ b₃) = [b₀, b₁, b₂, b₃] := by
  have h₀ := b₀.toNat_lt
  have h₁ := b₁.toNat_lt
  have h₂ := b₂.toNat_lt
  have h₃ := b₃.toNat_lt
  simp only [beBytes, List.cons.injEq, and_true, ← UInt8.toNat_inj, toNat_ofNat_and,
    Nat.shiftRight_eq_div_pow, be32_eq]
  omega

/-- A natural number is a `size_t` as it is. -/
theorem sizeT_natCast {n : ℕ} (hn : n < 2 ^ 64) : sizeT n = n := by
  unfold sizeT; omega

/-- A negative number becomes a huge size. -/
theorem sizeT_of_neg {z : ℤ} (hz : z < 0) (hlow : -2 ^ 31 ≤ z) : 2 ^ 63 ≤ sizeT z := by
  unfold sizeT; omega

/-- A number below 2^31 is an `int` as it is. -/
theorem int32_of_lt {n : ℕ} (hn : n < 2 ^ 31) : int32 n = n := by
  rw [int32, if_pos hn]

/-- An `int` is in its range. -/
theorem int32_bounds {n : ℕ} (hn : n < 2 ^ 32) : -2 ^ 31 ≤ int32 n ∧ int32 n < 2 ^ 31 := by
  unfold int32; split_ifs <;> omega

/-- **A small size is the word itself.**  A word with its top bit set is a
negative number, whose size is huge. -/
theorem eq_of_sizeT_int32_lt {n : ℕ} (hn : n < 2 ^ 32) (h : sizeT (int32 n) < 2 ^ 31) :
    sizeT (int32 n) = n := by
  by_cases hs : n < 2 ^ 31
  · rw [int32_of_lt hs, sizeT_natCast (by omega)]
  · have hneg : int32 n < 0 := by rw [int32, if_neg hs]; omega
    have := sizeT_of_neg hneg (int32_bounds hn).1
    omega

end BigEndian
