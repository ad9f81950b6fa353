import Mathlib.Data.List.Basic

/-!
# Ordered maps

`mem_iff_exists` reads membership as a lookup. `insertAll` inserts the elements of a list
one after another under keys that must be new: a key that is there already, or an element
whose value cannot be made, ends it with an error. What it gives is a lookup
(`insertAll_lookup`), distinct keys are inserted whole (`insertAll_eq_ok`), and the entries
of a map give that map again (`insertAll_toList`).
-/

namespace TreeMap

open Std List

variable {α β γ ε : Type*} [Ord α] [TransOrd α] {m m' : ExtTreeMap α β} {l : List γ}

theorem mem_iff_exists {a : α} : a ∈ m ↔ ∃ v, m[a]? = some v := by
  rw [ExtTreeMap.mem_iff_isSome_getElem?, Option.isSome_iff_exists]

/-- Insert every element of the list under its key, which must be new. -/
def insertAll (key : γ → α) (value : γ → Except ε β) (duplicate : γ → ε)
    (m : ExtTreeMap α β) : List γ → Except ε (ExtTreeMap α β)
  | [] => .ok m
  | x :: rest =>
    match value x with
    | .error error => .error error
    | .ok v =>
      if key x ∈ m then .error (duplicate x)
      else insertAll key value duplicate (m.insert (key x) v) rest

variable {key : γ → α} {value : γ → Except ε β} {duplicate : γ → ε}

theorem insertAll_append {l' : List γ} (h : insertAll key value duplicate m l = .ok m') :
    insertAll key value duplicate m (l ++ l') = insertAll key value duplicate m' l' := by
  induction l generalizing m with
  | nil =>
    cases h
    rfl
  | cons x rest ih =>
    simp only [insertAll, cons_append] at h ⊢
    split at h
    · cases h
    · split at h
      · cases h
      · rename_i hNew
        simp only [hNew, if_false]
        exact ih h

/-- Every element of a list that was inserted has a value. -/
theorem exists_value (h : insertAll key value duplicate m l = .ok m') {x : γ} (hx : x ∈ l) :
    ∃ v, value x = .ok v := by
  induction l generalizing m with
  | nil => cases hx
  | cons y rest ih =>
    unfold insertAll at h
    split at h
    · cases h
    rename_i v hv
    split_ifs at h
    rcases mem_cons.mp hx with rfl | hRest
    · exact ⟨v, hv⟩
    · exact ih h hRest

variable [LawfulEqOrd α]

/-- What is in the map afterwards was in it before or in the list. -/
theorem insertAll_lookup (h : insertAll key value duplicate m l = .ok m') (a : α) (v : β) :
    m'[a]? = some v ↔ (∃ x ∈ l, key x = a ∧ value x = .ok v) ∨ m[a]? = some v := by
  induction l generalizing m with
  | nil =>
    cases h
    simp
  | cons x rest ih =>
    unfold insertAll at h
    split at h
    · cases h
    rename_i hw
    split_ifs at h with hAbsent
    rw [ih h, ExtTreeMap.getElem?_insert]
    simp only [Std.compare_eq_iff_eq, mem_cons, exists_eq_or_imp]
    by_cases hKey : key x = a
    · -- the old map has nothing at the key of the new element
      have hNone : m[a]? = none := by
        rw [← hKey]
        exact ExtTreeMap.getElem?_eq_none hAbsent
      simp [hKey, hNone, hw, or_comm]
    · simp [hKey]

/-- A list of new, pairwise distinct keys is inserted whole. -/
theorem insertAll_eq_ok (hKeys : l.Pairwise (key · ≠ key ·)) (hNew : ∀ x ∈ l, key x ∉ m)
    (hValue : ∀ x ∈ l, ∃ v, value x = .ok v) :
    ∃ m', insertAll key value duplicate m l = .ok m' := by
  induction l generalizing m with
  | nil => exact ⟨m, rfl⟩
  | cons x rest ih =>
    have hDistinct := pairwise_cons.mp hKeys
    have hAbsent : key x ∉ m := hNew x mem_cons_self
    obtain ⟨w, hw⟩ := hValue x mem_cons_self
    have hRest : ∀ y ∈ rest, key y ∉ m.insert (key x) w := by
      intro y hy
      simp only [ExtTreeMap.mem_insert, Std.compare_eq_iff_eq, not_or]
      exact ⟨hDistinct.1 y hy, hNew y (mem_cons_of_mem x hy)⟩
    obtain ⟨m', hOk⟩ := ih hDistinct.2 hRest fun y hy => hValue y (mem_cons_of_mem x hy)
    exact ⟨m', by simpa only [insertAll, hw, hAbsent, if_false] using hOk⟩

/-- The entries of a map, inserted again, give the map. -/
theorem insertAll_toList {g : α × β → γ} (hKey : ∀ entry, key (g entry) = entry.1)
    (hValue : ∀ entry, value (g entry) = .ok entry.2) :
    insertAll key value duplicate ∅ (m.toList.map g) = .ok m := by
  have hDistinct : (m.toList.map g).Pairwise (key · ≠ key ·) := by
    refine pairwise_map.mpr (m.distinct_keys_toList.imp ?_)
    intro _ _ hNe hEq
    rw [hKey, hKey] at hEq
    exact hNe (Std.compare_eq_iff_eq.mpr hEq)
  have hMade : ∀ x ∈ m.toList.map g, ∃ v, value x = .ok v := by
    intro _ hx
    obtain ⟨entry, -, rfl⟩ := mem_map.mp hx
    exact ⟨entry.2, hValue entry⟩
  have hAbsent : ∀ x ∈ m.toList.map g, key x ∉ (∅ : ExtTreeMap α β) :=
    fun x _ => ExtTreeMap.not_mem_empty
  obtain ⟨_, hOk⟩ := insertAll_eq_ok hDistinct hAbsent hMade
  rw [hOk]
  congr 1
  refine ExtTreeMap.ext_getElem? fun a => Option.ext fun v => ?_
  rw [insertAll_lookup hOk, ExtTreeMap.getElem?_empty]
  simp only [mem_map, reduceCtorEq, or_false]
  constructor
  · rintro ⟨_, ⟨⟨_, _⟩, hMem, rfl⟩, hAt, hv⟩
    rw [hKey] at hAt
    rw [hValue] at hv
    cases hAt
    cases hv
    exact ExtTreeMap.mem_toList_iff_getElem?_eq_some.mp hMem
  · intro hAt
    exact ⟨_, ⟨(a, v), ExtTreeMap.mem_toList_iff_getElem?_eq_some.mpr hAt, rfl⟩, hKey _, hValue _⟩

end TreeMap
