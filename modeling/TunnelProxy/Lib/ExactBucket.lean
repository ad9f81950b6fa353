import Mathlib.Tactic.Linarith

/-!
# Token buckets over exact arithmetic

A bucket gains `rate` units per tick up to its capacity and is refilled only forward in
time. Nothing here rounds or overflows; an implementation over machine integers is
compared with it.

* `refill_refill` — refills at two instants are one refill at the later of them
* `refill_tokens_le` — what a refill adds is paid by the ticks it covers
* `cost_le_refill_iff` — an empty bucket affords a cost again exactly `wait` ticks later
-/

structure ExactBucket where
  rate : Nat
  capacity : Nat
  tokens : Nat
  filledAt : Nat
deriving DecidableEq

namespace ExactBucket

def refill (b : ExactBucket) (now : Nat) : ExactBucket :=
  if now ≤ b.filledAt then b
  else { b with
    tokens := min b.capacity (b.tokens + (now - b.filledAt) * b.rate)
    filledAt := now }

/-- The least number of ticks in which the missing part of the cost is gained. -/
def wait (b : ExactBucket) (cost : Nat) : Nat := (cost - b.tokens + (b.rate - 1)) / b.rate

@[simp] theorem refill_rate (b : ExactBucket) (now : Nat) : (b.refill now).rate = b.rate := by
  unfold refill
  split_ifs <;> rfl

@[simp] theorem refill_capacity (b : ExactBucket) (now : Nat) :
    (b.refill now).capacity = b.capacity := by
  unfold refill
  split_ifs <;> rfl

@[simp] theorem refill_filledAt (b : ExactBucket) (now : Nat) :
    (b.refill now).filledAt = max b.filledAt now := by
  unfold refill
  split_ifs with hLe
  · exact (Nat.max_eq_left hLe).symm
  · exact (Nat.max_eq_right (Nat.le_of_not_le hLe)).symm

variable {b : ExactBucket}

section

variable (h : b.tokens ≤ b.capacity)
include h

/-- The level after a refill, the same on both branches: no tick is covered twice. -/
theorem refill_tokens (now : Nat) :
    (b.refill now).tokens = min b.capacity (b.tokens + (now - b.filledAt) * b.rate) := by
  unfold refill
  split_ifs with hLe
  · rw [Nat.sub_eq_zero_of_le hLe, Nat.zero_mul, Nat.add_zero, Nat.min_eq_right h]
  · rfl

theorem refill_tokens_le_capacity (now : Nat) :
    (b.refill now).tokens ≤ b.capacity := by
  rw [refill_tokens h]
  exact Nat.min_le_left _ _

theorem tokens_le_refill (now : Nat) :
    b.tokens ≤ (b.refill now).tokens := by
  rw [refill_tokens h]
  exact Nat.le_min.mpr ⟨h, Nat.le_add_right _ _⟩

/-- **A refill is paid by the time it covers**, counted from any earlier instant. -/
theorem refill_tokens_le (now : Nat) {start : Nat}
    (hStart : start ≤ b.filledAt) :
    (b.refill now).tokens + b.rate * (b.filledAt - start) ≤
      b.tokens + b.rate * ((b.refill now).filledAt - start) := by
  have hTokens : (b.refill now).tokens ≤ b.tokens + (now - b.filledAt) * b.rate := by
    rw [refill_tokens h]
    exact Nat.min_le_right _ _
  have hTicks : (b.refill now).filledAt - start = (now - b.filledAt) + (b.filledAt - start) := by
    rw [refill_filledAt]
    omega
  rw [hTicks, Nat.mul_add, Nat.mul_comm b.rate (now - b.filledAt)]
  omega

theorem refill_refill (u v : Nat) :
    (b.refill u).refill v = b.refill (max u v) := by
  have hFirst := refill_tokens_le_capacity h u
  have hTokens : ((b.refill u).refill v).tokens = (b.refill (max u v)).tokens := by
    rw [refill_tokens (by rwa [refill_capacity]), refill_tokens h, refill_tokens h,
      refill_capacity, refill_filledAt, refill_rate]
    -- the ticks up to `u` and those from there to `v` are the ticks up to the later one
    have hTicks : (max u v - b.filledAt) = (u - b.filledAt) + (v - max b.filledAt u) := by omega
    rw [hTicks, Nat.add_mul]
    omega
  have hFilled : ((b.refill u).refill v).filledAt = (b.refill (max u v)).filledAt := by
    simp only [refill_filledAt]
    omega
  calc (b.refill u).refill v
      = ⟨b.rate, b.capacity, ((b.refill u).refill v).tokens, ((b.refill u).refill v).filledAt⟩ := by
        rw [← refill_rate b u, ← refill_capacity b u, ← refill_rate (b.refill u) v,
          ← refill_capacity (b.refill u) v]
    _ = ⟨b.rate, b.capacity, (b.refill (max u v)).tokens, (b.refill (max u v)).filledAt⟩ := by
        rw [hTokens, hFilled]
    _ = b.refill (max u v) := by
        rw [← refill_rate b (max u v), ← refill_capacity b (max u v)]

end

/-- The wait is the ceiling of the deficit over the rate. -/
theorem wait_le_iff (hRate : 0 < b.rate) (cost ticks : Nat) :
    b.wait cost ≤ ticks ↔ cost - b.tokens ≤ ticks * b.rate := by
  unfold wait
  rw [Nat.div_le_iff_le_mul_add_pred hRate, Nat.mul_comm]
  omega

/-- **When a bucket affords the cost again.** -/
theorem cost_le_refill_iff {cost : Nat} (hRate : 0 < b.rate) (hCost : cost ≤ b.capacity)
    (hTokens : b.tokens ≤ b.capacity) (hShort : b.tokens < cost) (now : Nat) :
    cost ≤ (b.refill now).tokens ↔ b.filledAt + b.wait cost ≤ now := by
  have hWait : 0 < b.wait cost := by
    by_contra hZero
    have hGained := (wait_le_iff hRate cost 0).mp (by omega)
    omega
  rw [refill_tokens hTokens, Nat.le_min, and_iff_right hCost]
  constructor
  · intro _
    have hTicks := (wait_le_iff hRate cost (now - b.filledAt)).mpr (by omega)
    omega
  · intro _
    have hGained := (wait_le_iff hRate cost (now - b.filledAt)).mp (by omega)
    omega

end ExactBucket
