import Mathlib.Algebra.GroupWithZero.Nat
import Mathlib.Data.List.Nodup
import Mathlib.Data.List.Perm.Subperm

/-!
# Maps from keys to list positions

A list of records and a map that sends a record's key to its position is how a
table with an index is kept. `countP_le_size` bounds the records of a kind by the
size of the map when each of them is indexed at its own position.
-/

namespace IndexMap

open Std List

variable {α κ : Type} {key : α → κ} {p : α → Bool} {l : List α} {a b : α} {i : Nat}

/-- Records of the kind whose keys are listed without repetition are told apart by
their keys. -/
theorem eq_of_nodup_keys (h : ((l.filter p).map key).Nodup) {j : Nat} (hi : l[i]? = some a)
    (hj : l[j]? = some b) (ha : p a) (hb : p b) (hKey : key a = key b) : i = j := by
  rw [Nodup, pairwise_map, pairwise_filter, pairwise_iff_getElem] at h
  obtain ⟨hiLt, rfl⟩ := List.getElem?_eq_some_iff.mp hi
  obtain ⟨hjLt, rfl⟩ := List.getElem?_eq_some_iff.mp hj
  rcases Nat.lt_trichotomy i j with hLt | hEq | hGt
  · exact absurd hKey (h i j hiLt hjLt hLt ha hb)
  · exact hEq
  · exact absurd hKey.symm (h j i hjLt hiLt hGt hb ha)

/-- A record is the only one of its key. -/
theorem filter_key_eq [DecidableEq κ] (h : (l.map key).Nodup) (ha : a ∈ l) :
    l.filter (fun b => key b = key a) = [a] := by
  induction l with
  | nil => cases ha
  | cons b l ih =>
    rw [map_cons, nodup_cons] at h
    rcases mem_cons.mp ha with rfl | hMem
    · have hRest : l.filter (fun b => key b = key a) = [] := by
        rw [filter_eq_nil_iff]
        intro c hc hEq
        exact h.1 (mem_map.mpr ⟨c, hc, of_decide_eq_true hEq⟩)
      simp [hRest]
    · have hNe : key b ≠ key a := fun hEq => h.1 (mem_map.mpr ⟨a, hMem, hEq.symm⟩)
      simp [hNe, ih h.2 hMem]

/-- The sum of a weight over the records, when one of them is replaced. -/
theorem sum_map_set {f : α → Nat} (b : α) (hi : l[i]? = some a) :
    ((l.set i b).map f).sum + f a = (l.map f).sum + f b := by
  induction l generalizing i with
  | nil => cases hi
  | cons _ _ ih =>
    cases i with
    | zero =>
      cases hi
      simp only [set_cons_zero, map_cons, sum_cons]
      omega
    | succ _ =>
      have hRest := ih hi
      simp only [set_cons_succ, map_cons, sum_cons]
      omega

variable [Ord κ] [TransOrd κ]

/-- Every record that satisfies `p` is found under its key, at its position. -/
def Indexes (key : α → κ) (p : α → Bool) (l : List α) (m : ExtTreeMap κ Nat) : Prop :=
  ∀ (i : Nat) (a : α), l[i]? = some a → p a → m[key a]? = some i

variable {m : ExtTreeMap κ Nat}

/-- Two indexed records of one key would have one position. -/
theorem Indexes.pairwise (h : Indexes key p l m) :
    l.Pairwise fun a b => p a → p b → key a ≠ key b := by
  rw [pairwise_iff_getElem]
  intro i j hi hj _ ha hb hEq
  have hA := h i l[i] (getElem?_eq_getElem hi) ha
  have hB := h j l[j] (getElem?_eq_getElem hj) hb
  rw [hEq, hB, Option.some.injEq] at hA
  omega

theorem Indexes.nodup_keys (h : Indexes key p l m) : ((l.filter p).map key).Nodup := by
  rw [Nodup, pairwise_map, pairwise_filter]
  exact h.pairwise.imp fun hNe ha hb => hNe ha hb

/-- Replacing a record keeps the index if the new record has the same key and is
of the kind only if the old one was. -/
theorem Indexes.set (h : Indexes key p l m) (hi : l[i]? = some a) (hKey : key b = key a)
    (hKind : p b → p a) : Indexes key p (l.set i b) m := by
  intro j c hj hc
  rw [getElem?_set] at hj
  split_ifs at hj with hij hLt
  · cases hj
    subst hij
    rw [hKey]
    exact h i a hi (hKind hc)
  · exact h j c hj hc

/-- Such a replacement does not add to the count. -/
theorem countP_set_le (hi : l[i]? = some a) (hKind : p b → p a) :
    (l.set i b).countP p ≤ l.countP p := by
  obtain ⟨hLt, hGet⟩ := List.getElem?_eq_some_iff.mp hi
  rw [countP_set hLt, hGet]
  by_cases ha : p a
  · have hPos : 0 < l.countP p := countP_pos_iff.mpr ⟨a, mem_of_getElem? hi, ha⟩
    split_ifs <;> omega
  · have hb : ¬ p b := fun hb => ha (hKind hb)
    simp [ha, hb]

variable [LawfulEqOrd κ]

/-- **The index bounds the records.** -/
theorem Indexes.countP_le_size (h : Indexes key p l m) : l.countP p ≤ m.size := by
  have hSub : (l.filter p).map key ⊆ m.keys := by
    intro _ hk
    obtain ⟨a, ha, rfl⟩ := mem_map.mp hk
    obtain ⟨hMem, hp⟩ := mem_filter.mp ha
    obtain ⟨i, hi⟩ := mem_iff_getElem?.mp hMem
    have hSome := h i a hi hp
    rw [ExtTreeMap.mem_keys]
    exact ExtTreeMap.mem_iff_isSome_getElem?.mpr (by rw [hSome]; rfl)
  calc l.countP p = ((l.filter p).map key).length := by
        rw [length_map, countP_eq_length_filter]
    _ ≤ m.keys.length := (h.nodup_keys.subperm hSub).length_le
    _ = m.size := ExtTreeMap.length_keys

/-- A new record with a fresh key. -/
theorem Indexes.push (h : Indexes key p l m) (hFresh : m[key a]? = none) :
    Indexes key p (l ++ [a]) (m.insert (key a) l.length) := by
  intro i b hi hb
  rw [ExtTreeMap.getElem?_insert]
  rw [getElem?_append] at hi
  split_ifs at hi with hLt
  · have hSome := h i b hi hb
    have hNe : key a ≠ key b := fun hEq => by rw [hEq, hSome] at hFresh; cases hFresh
    rw [if_neg (by rwa [Std.compare_eq_iff_eq])]
    exact hSome
  · rw [getElem?_singleton] at hi
    split_ifs at hi with hZero
    cases hi
    rw [if_pos ReflOrd.compare_self]
    congr 1
    omega

/-- Taking out a key under which no record of the kind is indexed. -/
theorem Indexes.erase (h : Indexes key p l m) {k : κ}
    (hIdle : ∀ i a, m[k]? = some i → l[i]? = some a → p a = false) :
    Indexes key p l (m.erase k) := by
  intro i a hi ha
  have hSome := h i a hi ha
  rw [ExtTreeMap.getElem?_erase]
  split_ifs with hEq
  · rw [Std.compare_eq_iff_eq] at hEq
    subst hEq
    rw [hIdle i a hSome hi] at ha
    cases ha
  · exact hSome

end IndexMap
