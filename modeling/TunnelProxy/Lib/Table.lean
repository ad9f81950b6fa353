import Mathlib.Data.List.Pairwise
import Mathlib.Tactic.Common

/-!
# Tables and transactions

`Table α clash` is a list of rows of which no two clash: what the primary key and the
unique columns of a database table guarantee. Rows are inserted, which fails on a clash,
changed in place by functions that keep them apart, and deleted.

`transact` runs the body of a transaction: a body that fails leaves the state as it was,
one that ends commits, and may still report an error.

* `Table.find?_unique` — a lookup by what only one row has
* `Table.eq_of_clash` — a row is determined by what it must not share
* `Table.insert_eq_some`, `Table.mem_insert`, `Table.mem_updateWhere` — the rows after a change
* `Table.updateWhere_eq_self` — an update that finds nothing to change
* `bind_eq_ok`, `ok_bind`, `transact_elim` — taking a body apart
-/

variable {α : Type*}

/-- Rows of which no two clash. -/
@[ext]
structure Table (α : Type*) (clash : α → α → Prop) where
  rows : List α
  distinct : rows.Pairwise fun a b => ¬clash a b
deriving DecidableEq

namespace Table

open List

variable {p : α → Bool}

/-- The first row that is selected is the only one. -/
theorem find?_unique {l : List α} {a : α} (ha : a ∈ l) (hp : p a = true)
    (hOnly : ∀ b ∈ l, p b = true → b = a) : l.find? p = some a := by
  cases hFind : l.find? p with
  | none => exact absurd hp (find?_eq_none.mp hFind a ha)
  | some b => rw [hOnly b (mem_of_find?_eq_some hFind) (find?_some hFind)]

variable {clash : α → α → Prop} {t t' : Table α clash} {a b row : α}

def empty : Table α clash := ⟨[], Pairwise.nil⟩

/-- Insert a row that clashes with none. -/
def insert [DecidableRel clash] (t : Table α clash) (row : α) : Option (Table α clash) :=
  if h : ∀ old ∈ t.rows, ¬clash old row then
    some ⟨t.rows ++ [row], pairwise_append.mpr
      ⟨t.distinct, pairwise_singleton _ row, fun old hOld _ hNew =>
        mem_singleton.mp hNew ▸ h old hOld⟩⟩
  else none

theorem insert_eq_some [DecidableRel clash] :
    t.insert row = some t' ↔ (∀ old ∈ t.rows, ¬clash old row) ∧ t'.rows = t.rows ++ [row] := by
  unfold insert
  split_ifs with h
  · rw [Option.some.injEq]
    constructor
    · rintro rfl
      exact ⟨h, rfl⟩
    · rintro ⟨-, _⟩
      cases t'
      simp_all
  · simp [h]

theorem mem_insert [DecidableRel clash] (h : t.insert row = some t') :
    a ∈ t'.rows ↔ a ∈ t.rows ∨ a = row := by
  rw [(insert_eq_some.mp h).2, mem_append, mem_singleton]

/-- Delete the rows that `p` selects. -/
def deleteWhere (t : Table α clash) (p : α → Bool) : Table α clash where
  rows := t.rows.filter (!p ·)
  distinct := t.distinct.filter _

variable [Std.Symm clash]

/-- Change the rows that `p` selects, in columns that cannot clash. -/
def updateWhere (t : Table α clash) (p : α → Bool) (f : α → α)
    (hKeys : ∀ a b, clash (f a) b → clash a b) : Table α clash where
  rows := t.rows.map fun row => if p row then f row else row
  distinct := by
    have hKeys' : ∀ a b, clash a (f b) → clash a b :=
      fun a b h => Std.Symm.symm _ _ (hKeys b a (Std.Symm.symm _ _ h))
    refine pairwise_map.mpr (t.distinct.imp fun {a b} hApart hClash => hApart ?_)
    split_ifs at hClash
    · exact hKeys _ _ (hKeys' _ _ hClash)
    · exact hKeys _ _ hClash
    · exact hKeys' _ _ hClash
    · exact hClash

theorem eq_of_clash (ha : a ∈ t.rows) (hb : b ∈ t.rows) (hClash : clash a b) : a = b := by
  have : Std.Symm fun a b => ¬clash a b := ⟨fun _ _ h hc => h (Std.Symm.symm _ _ hc)⟩
  by_contra hNe
  exact t.distinct.forall ha hb hNe hClash

theorem mem_updateWhere {f : α → α} {hKeys : ∀ a b, clash (f a) b → clash a b} :
    a ∈ (t.updateWhere p f hKeys).rows ↔ ∃ old ∈ t.rows, (if p old then f old else old) = a :=
  mem_map

/-- An update that would change no row changes nothing. -/
theorem updateWhere_eq_self {f : α → α} (hKeys : ∀ a b, clash (f a) b → clash a b)
    (h : ∀ row ∈ t.rows, p row = true → f row = row) : t.updateWhere p f hKeys = t := by
  refine Table.ext ((map_congr_left fun row hRow => ?_).trans (map_id t.rows))
  split_ifs with hSelected
  · exact h row hRow hSelected
  · rfl

end Table

/-! ## Transactions -/

section

variable {α β σ ε : Type} {x : Except ε α} {f : α → Except ε β}

/-- Take a fallible computation apart. -/
theorem bind_eq_ok {b : β} : x >>= f = .ok b ↔ ∃ a, x = .ok a ∧ f a = .ok b := by
  cases x with
  | error => exact ⟨nofun, fun ⟨_, h, _⟩ => (by cases h)⟩
  | ok a => exact ⟨fun h => ⟨a, rfl, h⟩, fun ⟨_, h, hf⟩ => (by cases h; exact hf)⟩

theorem bind_eq_error {error : ε} :
    x >>= f = .error error ↔ x = .error error ∨ ∃ a, x = .ok a ∧ f a = .error error := by
  cases x with
  | error failed =>
    show Except.error failed = Except.error error ↔ _
    simp
  | ok a =>
    show f a = Except.error error ↔ _
    simp

/-- Whether a computation succeeds with a property is decided by its evaluation. -/
instance decidableExistsOk {P : α → Prop} [DecidablePred P] : Decidable (∃ a, x = .ok a ∧ P a) :=
  decidable_of_iff (x.toOption.any P = true) (by cases x <;> simp [Except.toOption])

theorem ok_bind (a : α) (f : α → Except ε β) : (.ok a >>= f) = f a := rfl

/-- Run the body of a transaction and roll back if it fails. -/
def transact (s : σ) (body : Except ε (Except ε α × σ)) : Except ε α × σ :=
  match body with
  | .error error => (.error error, s)
  | .ok committed => committed

/-- What holds of every failure with the old state and of everything the body commits
holds of the transaction. -/
theorem transact_elim {motive : Except ε α × σ → Prop} {s : σ}
    {body : Except ε (Except ε α × σ)} (hFailed : ∀ error, motive (.error error, s))
    (hCommitted : ∀ result, body = .ok result → motive result) : motive (transact s body) := by
  cases body with
  | error error => exact hFailed error
  | ok result => exact hCommitted result rfl

end
