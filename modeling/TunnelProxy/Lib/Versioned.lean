import Mathlib.Data.List.Pairwise
import Mathlib.Order.Lattice
import Mathlib.Tactic.Common

/-!
# Histories of versioned values

The values a store has held, newest first, when every change of the store raises the
version. A publisher that refuses older values and other values of the same version never
refuses one that is taken from such a history at or after the one it holds.

* `Growing.eq_of_version` — a version names one value
* `Growing.cons` — the rule for a change of the store
* `Growing.mem_le_head` — the store holds the newest value
* `Growing.eq_or_lt` — a later value is the same one or has a larger version
* `UpTo` — one value is another one or older
-/

namespace Versioned

open List

variable {α ν : Type*} [LinearOrder ν] {version : α → ν} {history : List α} {a b newest : α}

/-- Newest first, the versions decrease. -/
def Growing (version : α → ν) (history : List α) : Prop :=
  history.Pairwise fun newer older => version older < version newer

theorem Growing.singleton (a : α) : Growing version [a] := pairwise_singleton _ a

theorem Growing.mem_le_head (h : Growing version (newest :: history))
    (ha : a ∈ newest :: history) : version a ≤ version newest := by
  rcases mem_cons.mp ha with rfl | hOlder
  · exact le_rfl
  · exact ((pairwise_cons.mp h).1 a hOlder).le

/-- A new value needs a version above that of the value it replaces. -/
theorem Growing.cons (h : Growing version (newest :: history))
    (hNew : version newest < version a) : Growing version (a :: newest :: history) :=
  pairwise_cons.mpr ⟨fun _ hb => (h.mem_le_head hb).trans_lt hNew, h⟩

theorem Growing.eq_of_version (h : Growing version history) (ha : a ∈ history)
    (hb : b ∈ history) (hVersion : version a = version b) : a = b := by
  -- whichever of the two is newer would have the larger version
  induction history with
  | nil => cases ha
  | cons _ _ ih =>
    obtain ⟨hNewest, hRest⟩ := pairwise_cons.mp h
    rcases mem_cons.mp ha with rfl | hOlder
    · rcases mem_cons.mp hb with rfl | hOlder'
      · rfl
      · exact absurd hVersion (hNewest b hOlder').ne'
    · rcases mem_cons.mp hb with rfl | hOlder'
      · exact absurd hVersion (hNewest a hOlder).ne
      · exact ih hRest hOlder hOlder'

theorem Growing.eq_or_lt (h : Growing version history) (ha : a ∈ history) (hb : b ∈ history)
    (hVersion : version a ≤ version b) : a = b ∨ version a < version b :=
  (hVersion.eq_or_lt).imp_left (h.eq_of_version ha hb)

/-- `a` is `b`, or older. -/
def UpTo (version : α → ν) (a b : α) : Prop := a = b ∨ version a < version b

theorem UpTo.refl (a : α) : UpTo version a a := Or.inl rfl

theorem UpTo.version_le (h : UpTo version a b) : version a ≤ version b := by
  rcases h with rfl | hLt
  · exact le_rfl
  · exact hLt.le

theorem UpTo.trans {c : α} (hab : UpTo version a b) (hbc : UpTo version b c) :
    UpTo version a c := by
  rcases hab with rfl | hLt
  · exact hbc
  · exact .inr (hLt.trans_le hbc.version_le)

theorem UpTo.eq_of_version_le (h : UpTo version a b) (hVersion : version b ≤ version a) : a = b :=
  h.resolve_right hVersion.not_gt

end Versioned
