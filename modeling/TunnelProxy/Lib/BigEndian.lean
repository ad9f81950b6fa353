import Mathlib.Tactic.Ring
import Mathlib.Tactic.Positivity

/-!
# Big-endian unsigned integers

`be k n` is the `k`-byte big-endian form of `n` (the high bytes are cut off
when `n` does not fit) and `readBE` reads a byte list back as a number.

* `readBE_be` — reading what was written returns the number.
* `be_readBE` — a `k`-byte string is the big-endian form of its value.
-/

namespace BigEndian

/-- The `k` low bytes of `n`, most significant first. -/
def be : Nat → Nat → List UInt8
  | 0, _ => []
  | k + 1, n => UInt8.ofNat (n / 256 ^ k) :: be k n

/-- The number a byte string denotes, most significant byte first. -/
def readBE : List UInt8 → Nat
  | [] => 0
  | b :: bs => b.toNat * 256 ^ bs.length + readBE bs

@[simp] theorem length_be (k n : Nat) : (be k n).length = k := by
  induction k with
  | zero => rfl
  | succ _ ih => simp [be, ih]

theorem readBE_lt (bs : List UInt8) : readBE bs < 256 ^ bs.length := by
  induction bs with
  | nil => simp [readBE]
  | cons b bs ih =>
    have hb : b.toNat < 256 := UInt8.toNat_lt b
    calc readBE (b :: bs) < b.toNat * 256 ^ bs.length + 256 ^ bs.length := by
          simpa [readBE] using ih
      _ = (b.toNat + 1) * 256 ^ bs.length := by ring
      _ ≤ 256 * 256 ^ bs.length := Nat.mul_le_mul_right _ hb
      _ = 256 ^ (b :: bs).length := by rw [List.length_cons, pow_succ, mul_comm]

/-- Only the low `k` bytes of a number enter its `k`-byte form. -/
theorem readBE_be_mod (k n : Nat) : readBE (be k n) = n % 256 ^ k := by
  induction k with
  | zero => simp [be, readBE, Nat.mod_one]
  | succ k ih =>
    have hHigh : (UInt8.ofNat (n / 256 ^ k)).toNat = n / 256 ^ k % 256 := UInt8.toNat_ofNat'
    rw [be, readBE, length_be, ih, hHigh, Nat.mod_pow_succ]
    ring

theorem readBE_be {k n : Nat} (h : n < 256 ^ k) : readBE (be k n) = n := by
  rw [readBE_be_mod, Nat.mod_eq_of_lt h]

theorem be_add_mul (k n m : Nat) : be k (m * 256 ^ k + n) = be k n := by
  induction k generalizing m with
  | zero => rfl
  | succ k ih =>
    have hDiv : (m * 256 ^ (k + 1) + n) / 256 ^ k = m * 256 + n / 256 ^ k := by
      rw [pow_succ, show m * (256 ^ k * 256) + n = n + 256 ^ k * (m * 256) by ring,
        Nat.add_mul_div_left _ _ (by positivity), Nat.add_comm]
    have hTail : be k (m * 256 ^ (k + 1) + n) = be k n := by
      rw [show m * 256 ^ (k + 1) + n = (m * 256) * 256 ^ k + n by ring, ih]
    rw [be, be, hDiv, hTail]
    congr 1
    apply UInt8.toNat.inj
    simp only [UInt8.toNat_ofNat']
    omega

/-- A byte string is the big-endian form of the number it denotes. -/
theorem be_readBE (bs : List UInt8) : be bs.length (readBE bs) = bs := by
  induction bs with
  | nil => rfl
  | cons b bs ih =>
    have hDiv : (b.toNat * 256 ^ bs.length + readBE bs) / 256 ^ bs.length = b.toNat := by
      rw [Nat.mul_comm, Nat.mul_add_div (by positivity),
        Nat.div_eq_of_lt (readBE_lt bs), Nat.add_zero]
    rw [List.length_cons, be, readBE, hDiv, be_add_mul, ih]
    congr 1
    exact UInt8.ofNat_toNat

end BigEndian
