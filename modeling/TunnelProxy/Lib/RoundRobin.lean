import Mathlib.Data.List.Nodup

/-!
# Round robin

A list of distinct keys served from its front: a served key leaves or goes to the back, and
new keys join at the back. `Turn l served l'` is one such change. `[a, b].Sublist l` reads
"`a` is before `b`".

* `Turn.keeps` — two keys of which the first is not served keep their order
* `Turn.passes` — a served key that rejoins is behind all others
* `Turn.idxOf` — each turn of another key brings a key one place forward
-/

namespace RoundRobin

open List

variable {κ : Type*}

inductive Turn (l : List κ) : Option κ → List κ → Prop where
  | keep : Turn l none l
  | join (key : κ) (hNew : key ∉ l) : Turn l none (l ++ [key])
  | leave (key : κ) (rest : List κ) (hFront : l = key :: rest) : Turn l (some key) rest
  | rejoin (key : κ) (rest : List κ) (hFront : l = key :: rest) : Turn l (some key) (rest ++ [key])

variable {l l' : List κ} {a b key : κ} {served : Option κ}

/-- The served key is the front. -/
theorem Turn.front (h : Turn l (some key) l') : ∃ rest, l = key :: rest := by
  cases h with
  | leave _ _ hFront => exact ⟨_, hFront⟩
  | rejoin _ _ hFront => exact ⟨_, hFront⟩

theorem before_cons_ne (hNe : a ≠ key) : [a, b].Sublist (key :: l) ↔ [a, b].Sublist l := by
  constructor
  · intro h
    cases h with
    | cons _ h => exact h
    | cons_cons => exact absurd rfl hNe
  · exact fun h => h.cons key

/-- Nothing is before the front. -/
theorem not_before_front (hNodup : (b :: l).Nodup) (hNe : a ≠ b) : ¬ [a, b].Sublist (b :: l) := by
  rw [before_cons_ne hNe]
  intro h
  exact (nodup_cons.mp hNodup).1 (h.subset (by simp))

theorem Turn.keeps (h : Turn l served l') (hBefore : [a, b].Sublist l) (hServed : served ≠ some a) :
    [a, b].Sublist l' := by
  cases h with
  | keep => exact hBefore
  | join key => exact hBefore.trans (sublist_append_left l [key])
  | leave _ _ hFront =>
    subst hFront
    exact (before_cons_ne fun hEq => hServed (congrArg some hEq.symm)).mp hBefore
  | rejoin key rest hFront =>
    subst hFront
    have hRest := (before_cons_ne fun hEq => hServed (congrArg some hEq.symm)).mp hBefore
    exact hRest.trans (sublist_append_left rest [key])

theorem Turn.passes (h : Turn l (some a) l') (hNodup : l.Nodup) (hBefore : [a, b].Sublist l)
    (hStays : a ∈ l') : [b, a].Sublist l' := by
  cases h with
  | leave _ _ hFront =>
    subst hFront
    exact absurd hStays (nodup_cons.mp hNodup).1
  | rejoin _ rest hFront =>
    subst hFront
    have hBehind : b ∈ rest := by
      cases hBefore with
      | cons _ h | cons_cons _ h => exact h.subset (by simp)
    have hTwo : [b] ++ [a] = [b, a] := rfl
    rw [← hTwo]
    exact (singleton_sublist.mpr hBehind).append (Sublist.refl [a])

/-- The served key, if it rejoins, is behind every other key. -/
theorem Turn.behind (h : Turn l (some b) l') (hNodup : l.Nodup) (hNe : a ≠ b) (hMem : a ∈ l')
    (hStays : b ∈ l') : [a, b].Sublist l' := by
  cases h with
  | leave _ _ hFront =>
    subst hFront
    exact absurd hStays (nodup_cons.mp hNodup).1
  | rejoin _ rest =>
    have hRest : a ∈ rest :=
      (mem_append.mp hMem).resolve_right fun hEq => hNe (mem_singleton.mp hEq)
    exact (singleton_sublist.mpr hRest).append (Sublist.refl [b])

/-- A key that is there afterwards was there, unless it has just joined, behind all others. -/
theorem Turn.before_of_join (h : Turn l none l') (hMem : a ∈ l) (hNew : b ∉ l) (hJoined : b ∈ l') :
    [a, b].Sublist l' := by
  cases h with
  | keep => exact absurd hJoined hNew
  | join key =>
    rcases mem_append.mp hJoined with hOld | hKey
    · exact absurd hOld hNew
    · rw [mem_singleton.mp hKey]
      exact (singleton_sublist.mpr hMem).append (Sublist.refl [key])

theorem Turn.mem_of_mem (h : Turn l (some key) l') (hMem : a ∈ l') : a ∈ l := by
  cases h with
  | leave _ _ hFront =>
    subst hFront
    exact mem_cons_of_mem _ hMem
  | rejoin _ _ hFront =>
    subst hFront
    rcases mem_append.mp hMem with hRest | hKey
    · exact mem_cons_of_mem _ hRest
    · exact mem_cons.mpr (.inl (mem_singleton.mp hKey))

variable [DecidableEq κ]

/-- The places before a key: a turn of another key takes one of them, a joining key none. -/
theorem Turn.idxOf (h : Turn l served l') (hMem : a ∈ l) (hServed : served ≠ some a) :
    l'.idxOf a + (if served = none then 0 else 1) = l.idxOf a := by
  cases h with
  | keep => rw [if_pos rfl, Nat.add_zero]
  | join => rw [if_pos rfl, Nat.add_zero, idxOf_append_of_mem hMem]
  | leave key _ hFront =>
    subst hFront
    have hNe : key ≠ a := fun hEq => hServed (congrArg some hEq)
    rw [if_neg (by simp), idxOf_cons_ne _ hNe]
  | rejoin key rest hFront =>
    subst hFront
    have hNe : key ≠ a := fun hEq => hServed (congrArg some hEq)
    have hRest : a ∈ rest := (mem_cons.mp hMem).resolve_left (Ne.symm hNe)
    rw [if_neg (by simp), idxOf_cons_ne rest hNe, idxOf_append_of_mem hRest]

end RoundRobin
