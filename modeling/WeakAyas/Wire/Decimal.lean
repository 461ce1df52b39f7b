/-
# Numbers as text

The conversions of the standard library that the server calls: `std::stoi`,
`std::stoll`, `sscanf` with `%d`, and `std::to_string`, on the bytes of a
string and in the C locale, with an `int` of 32 bits and a `long` of 64.
-/

import WeakAyas.Wire.Package
import Mathlib.Data.List.TakeWhile

namespace WeakAyas

/-- `std::isspace`. -/
def isSpace (b : UInt8) : Bool := b == 32 || (9 ≤ b && b ≤ 13)

/-- `std::isdigit`. -/
def isDigit (b : UInt8) : Bool := 48 ≤ b && b ≤ 57

/-- The value of a run of decimal digits. -/
def decimal (ds : Bytes) : ℕ := ds.foldl (fun n d => 10 * n + (d.toNat - 48)) 0

/-- An integer in base 10, as `strtol` and `%d` read it, and what follows:
leading white space, one sign, the longest run of digits.  `none` without a
digit. -/
def scanInt (s : Bytes) : Option (ℤ × Bytes) :=
  let s := s.dropWhile isSpace
  let (negative, s) := match s with
    | 45 :: rest => (true, rest)
    | 43 :: rest => (false, rest)
    | _ => (false, s)
  let digits := s.takeWhile isDigit
  if digits.isEmpty then none
  else some (if negative then -(decimal digits : ℤ) else decimal digits, s.dropWhile isDigit)

/-- `scanInt` within `bits` bits, `none` where the standard function throws;
what follows the number is ignored. -/
def stoiBits (bits : ℕ) (s : Bytes) : Option ℤ :=
  match scanInt s with
  | none => none
  | some (n, _) => if -2 ^ (bits - 1) ≤ n ∧ n < 2 ^ (bits - 1) then some n else none

/-- `std::stoi`. -/
def stoi (s : Bytes) : Option ℤ := stoiBits 32 s

/-- `std::stoll`. -/
def stoll (s : Bytes) : Option ℤ := stoiBits 64 s

/-- What an `int` holds of a value outside its range: the standard leaves the
arithmetic undefined, the compiled code wraps. -/
def wrapInt (n : ℤ) : ℤ := n.bmod (2 ^ 32)

/-- `sscanf` with `%d`: `strtol`, which stops at the ends of a `long`, stored in an
`int`. -/
def scanD (s : Bytes) : Option (ℤ × Bytes) :=
  match scanInt s with
  | none => none
  | some (n, rest) => some (wrapInt (max (-2 ^ 63) (min n (2 ^ 63 - 1))), rest)

/-- An `int` is kept. -/
theorem wrapInt_of_range {n : ℤ} (hlow : -2 ^ 31 ≤ n) (hhigh : n < 2 ^ 31) : wrapInt n = n :=
  Int.bmod_eq_of_le (by omega) (by omega)

/-- The value of an `int` is one. -/
theorem wrapInt_range (n : ℤ) : -2 ^ 31 ≤ wrapInt n ∧ wrapInt n < 2 ^ 31 := by
  have hlow := Int.le_bmod (x := n) (m := 2 ^ 32) (by decide)
  have hhigh := Int.bmod_lt (x := n) (m := 2 ^ 32) (by decide)
  rw [wrapInt]
  omega

/-- A number that is read and fits in an `int` is stored as it is. -/
theorem scanD_of_scanInt {s rest : Bytes} {n : ℤ} (h : scanInt s = some (n, rest))
    (hlow : -2 ^ 31 ≤ n) (hhigh : n < 2 ^ 31) : scanD s = some (n, rest) := by
  have hlong : max (-2 ^ 63) (min n (2 ^ 63 - 1)) = n := by omega
  rw [scanD, h]
  dsimp only
  rw [hlong, wrapInt_of_range hlow hhigh]

theorem stoiBits_bounds {bits : ℕ} {s : Bytes} {n : ℤ} (h : stoiBits bits s = some n) :
    -2 ^ (bits - 1) ≤ n ∧ n < 2 ^ (bits - 1) := by
  unfold stoiBits at h
  split at h
  · cases h
  · split_ifs at h with hn
    exact Option.some.inj h ▸ hn

theorem isSpace_of_isDigit {b : UInt8} (h : isDigit b = true) : isSpace b = false := by
  simp only [isDigit, isSpace, Bool.and_eq_true, decide_eq_true_eq, Bool.or_eq_false_iff,
    beq_eq_false_iff_ne, Bool.and_eq_false_iff, decide_eq_false_iff_not] at h ⊢
  grind

/-- A run of digits is read up to what follows it. -/
theorem scanInt_append {ds rest : Bytes} (hne : ds ≠ []) (hds : ds.all isDigit = true)
    (hrest : ∀ b ∈ rest.head?, isDigit b = false) :
    scanInt (ds ++ rest) = some ((decimal ds : ℤ), rest) := by
  have hall : ∀ b ∈ ds, isDigit b = true := List.all_eq_true.1 hds
  have htake : rest.takeWhile isDigit = [] ∧ rest.dropWhile isDigit = rest := by
    rcases rest with _ | ⟨b, rest⟩
    · exact ⟨rfl, rfl⟩
    · have hb : isDigit b = false := hrest b rfl
      simp [hb]
  have htake' : (ds ++ rest).takeWhile isDigit = ds := by
    rw [List.takeWhile_append_of_pos hall, htake.1, List.append_nil]
  have hdrop' : (ds ++ rest).dropWhile isDigit = rest := by
    rw [List.dropWhile_append_of_pos hall, htake.2]
  obtain ⟨d, ds, rfl⟩ := List.exists_cons_of_ne_nil hne
  have hd : isDigit d = true := hall d List.mem_cons_self
  rw [List.cons_append] at htake' hdrop' ⊢
  unfold scanInt
  rw [List.dropWhile_cons_of_neg (by simp [isSpace_of_isDigit hd])]
  dsimp only
  split
  · rename_i h
    cases h
    exact absurd hd (by decide)
  · rename_i h
    cases h
    exact absurd hd (by decide)
  · simp [htake', hdrop']

/-- The value of `n` digits has `n` digits. -/
theorem decimal_lt {ds : Bytes} (hds : ds.all isDigit = true) : decimal ds < 10 ^ ds.length := by
  induction ds using List.reverseRecOn with
  | nil => decide
  | append_singleton ds d ih =>
    simp only [List.all_append, List.all_cons, List.all_nil, Bool.and_true, Bool.and_eq_true] at hds
    have hd : d.toNat ≤ 57 := by
      have h := hds.2
      simp only [isDigit, Bool.and_eq_true, decide_eq_true_eq] at h
      exact h.2
    have hds := ih hds.1
    rw [decimal, List.foldl_append, ← decimal, List.length_append, List.length_singleton, pow_succ]
    simp only [List.foldl_cons, List.foldl_nil]
    omega

/-- A string of digits is read whole. -/
theorem scanInt_digits {s : Bytes} (hne : s ≠ []) (hs : s.all isDigit = true) :
    scanInt s = some ((decimal s : ℤ), []) := by
  have h := scanInt_append hne hs (by simp : ∀ b ∈ ([] : Bytes).head?, isDigit b = false)
  rwa [List.append_nil] at h

/-- A string of digits within range is its value. -/
theorem stoiBits_digits {bits : ℕ} {s : Bytes} (hne : s ≠ []) (hs : s.all isDigit = true)
    (hlt : (decimal s : ℤ) < 2 ^ (bits - 1)) : stoiBits bits s = some (decimal s) := by
  have hneg : -(2 ^ (bits - 1) : ℤ) ≤ decimal s :=
    Int.le_trans (Int.neg_nonpos_of_nonneg (Int.pow_nonneg (by decide))) (Int.natCast_nonneg _)
  rw [stoiBits, scanInt_digits hne hs]
  exact if_pos ⟨hneg, hlt⟩

/-- The value of a string of digits is its own. -/
theorem eq_decimal_of_stoiBits {bits : ℕ} {s : Bytes} {n : ℤ} (hne : s ≠ [])
    (hs : s.all isDigit = true) (h : stoiBits bits s = some n) : n = decimal s := by
  rw [stoiBits, scanInt_digits hne hs] at h
  dsimp only at h
  split_ifs at h
  exact (Option.some.inj h).symm

/-- `std::to_string` of an integer, and `<<` on one. -/
def toText (n : ℤ) : Bytes :=
  (if n < 0 then [45] else []) ++
    (Nat.toDigits 10 n.natAbs).map fun c => UInt8.ofNat c.toNat

/-- A number that fits, one beyond an `int` and one beyond a `long`. -/
example : scanD (text "100000000:") = some (100000000, text ":") ∧
    scanD (text "2147483648") = some (-2147483648, []) ∧
    scanD (text "-99999999999999999999") = some (0, []) := by decide

/-- Blanks, a sign and a rest, and fields that the conversions refuse. -/
example : stoi (text " +07x") = some 7 ∧ stoi (text "-12") = some (-12) ∧ stoi (text "x") = none ∧
    stoi (text "2147483648") = none ∧ stoll (text "2147483648") = some 2147483648 ∧
    toText (-40) = text "-40" := by decide

end WeakAyas
