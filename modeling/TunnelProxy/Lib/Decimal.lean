import Mathlib.Tactic.Ring

/-!
# Decimal numbers of a fixed width

Numbers written with leading zeros, and the parser of unsigned integers that reads them.

* `parse_padded` — a number that fits in its width and its type is read back
* `isDigit_of_mem_padded` — it is written in digits
-/

namespace Decimal

open List

def isDigit (byte : UInt8) : Bool := 48 ≤ byte && byte ≤ 57

def digit (n : Nat) : UInt8 := UInt8.ofNat (48 + n)

/-- The last `width` digits of a number. -/
def padded : (width : Nat) → Nat → List UInt8
  | 0, _ => []
  | width + 1, n => padded width (n / 10) ++ [digit (n % 10)]

/-- Reads digits onto `value`, as long as it stays below `bound`. -/
def digits (bound : Nat) : (value : Nat) → List UInt8 → Option Nat
  | value, [] => some value
  | value, byte :: rest =>
    if isDigit byte then
      let next := value * 10 + (byte.toNat - 48)
      if next < bound then digits bound next rest else none
    else none

/-- An unsigned integer below `bound`: at least one digit, after an optional `+`. -/
def parse (bound : Nat) : List UInt8 → Option Nat
  | [] => none
  | 43 :: rest => if rest.isEmpty then none else digits bound 0 rest
  | text => digits bound 0 text

variable {n width : Nat}

theorem toNat_digit (h : n < 10) : (digit n).toNat = 48 + n := by
  rw [digit, UInt8.toNat_ofNat']
  omega

theorem isDigit_digit (h : n < 10) : isDigit (digit n) = true := by
  have hValue := toNat_digit h
  rw [isDigit, Bool.and_eq_true, decide_eq_true_eq, decide_eq_true_eq, UInt8.le_iff_toNat_le,
    UInt8.le_iff_toNat_le, hValue]
  show 48 ≤ 48 + n ∧ 48 + n ≤ 57
  omega

theorem isDigit_of_mem_padded {byte : UInt8} (h : byte ∈ padded width n) : isDigit byte = true := by
  induction width generalizing n with
  | zero => cases h
  | succ _ ih =>
    rcases mem_append.mp h with hMem | hLast
    · exact ih hMem
    · cases mem_singleton.mp hLast
      exact isDigit_digit (Nat.mod_lt n (by decide))

@[simp]
theorem length_padded (width n : Nat) : (padded width n).length = width := by
  induction width generalizing n with
  | zero => rfl
  | succ _ ih => rw [padded, length_append, ih, length_singleton]

/-- The digits of a number are read onto the value before them. -/
theorem digits_padded {bound value : Nat} (hWidth : n < 10 ^ width)
    (hBound : value * 10 ^ width + n < bound) (rest : List UInt8) :
    digits bound value (padded width n ++ rest) = digits bound (value * 10 ^ width + n) rest := by
  induction width generalizing n rest with
  | zero =>
    obtain rfl : n = 0 := by omega
    simp [padded]
  | succ width ih =>
    have hTen : value * 10 ^ (width + 1) = value * 10 ^ width * 10 := by ring
    rw [hTen] at hBound ⊢
    have hHigh : n / 10 < 10 ^ width := by
      rw [pow_succ] at hWidth
      omega
    have hLow : n % 10 < 10 := Nat.mod_lt n (by decide)
    rw [padded, append_assoc, ih hHigh (by omega), singleton_append, digits,
      if_pos (isDigit_digit hLow), toNat_digit hLow]
    have hNext : (value * 10 ^ width + n / 10) * 10 + (48 + n % 10 - 48) =
        value * 10 ^ width * 10 + n := by omega
    simp only [hNext, if_pos hBound]

theorem parse_padded {bound : Nat} (hPos : 0 < width) (hWidth : n < 10 ^ width)
    (hBound : n < bound) :
    parse bound (padded width n) = some n := by
  have hDigits : digits bound 0 (padded width n) = some n := by
    have hRead : digits bound 0 (padded width n ++ []) = digits bound (0 * 10 ^ width + n) [] :=
      digits_padded hWidth (by omega) []
    rw [append_nil, Nat.zero_mul, Nat.zero_add] at hRead
    exact hRead
  -- the first byte is a digit, so the parser does not take it for a sign
  cases hText : padded width n with
  | nil =>
    have hLength := length_padded width n
    rw [hText, length_nil] at hLength
    omega
  | cons byte =>
    have hMem : byte ∈ padded width n := by
      rw [hText]
      exact mem_cons_self
    have hDigit := isDigit_of_mem_padded hMem
    rw [hText] at hDigits
    rw [parse]
    · exact hDigits
    · intro hNil
      cases hNil
    · intro _ hSign
      cases hSign
      cases hDigit

end Decimal
