import Mathlib.Algebra.Order.BigOperators.Group.List
import Mathlib.Algebra.Order.Group.Nat
import Mathlib.Algebra.GroupWithZero.Nat
import Mathlib.Data.List.Nodup

/-!
# The bounded fair queue of the writers

`BoundedFairQueue` keeps one FIFO per key and serves the keys round robin. The
queue is a `FairQueueState` (the source's fields) together with `Valid`: the
length counts the queued items, and the active list names, once each, exactly
the keys with a non-empty FIFO. Both `expect`s of `pop` rest on it.

* `items_push` — a push appends to its own key's FIFO only.
* `pop_front` — a pop takes the head of one key's FIFO and leaves the others.
* `pop_eq_none_iff` — a pop fails on the empty queue only.
-/

namespace TunnelProxy.Common

open Std List

/-- Appending to one of the listed FIFOs adds the value's weight to their total. -/
theorem sum_weight_concat {κ ν : Type} [DecidableEq κ] {l : List κ} {key : κ}
    (hNodup : l.Nodup) (hMem : key ∈ l) (g : κ → List ν) (value : ν) (f : ν → Nat) :
    (l.map fun k => ((if k = key then g k ++ [value] else g k).map f).sum).sum =
      (l.map fun k => ((g k).map f).sum).sum + f value := by
  induction l with
  | nil => simp at hMem
  | cons a l ih =>
    rw [nodup_cons] at hNodup
    simp only [map_cons, sum_cons]
    by_cases hKey : a = key
    · subst hKey
      have hRest : (l.map fun k => ((if k = a then g k ++ [value] else g k).map f).sum) =
          l.map fun k => ((g k).map f).sum := by
        apply map_congr_left
        intro k hk
        rw [if_neg (fun hEq : k = a => hNodup.1 (hEq ▸ hk))]
      rw [hRest, if_pos rfl, map_append, sum_append, map_singleton,
        sum_singleton]
      omega
    · have hMem' : key ∈ l := (mem_cons.mp hMem).resolve_left (Ne.symm hKey)
      rw [ih hNodup.2 hMem', if_neg hKey]
      omega

variable {κ ν : Type} [Ord κ] [TransOrd κ]

structure FairQueueState (κ ν : Type) [Ord κ] [TransOrd κ] where
  capacity : Nat
  len : Nat
  active : List κ
  queues : ExtTreeMap κ (List ν)

namespace FairQueueState

def new (capacity : Nat) : FairQueueState κ ν := ⟨capacity, 0, [], ∅⟩

/-- The FIFO of a key; a key without a queue has none. -/
def items (q : FairQueueState κ ν) (key : κ) : List ν := q.queues[key]?.getD []

/-- `error` hands the value back when the queue is full. -/
def push (q : FairQueueState κ ν) (key : κ) (value : ν) : Except ν (FairQueueState κ ν) :=
  if q.len = q.capacity then .error value
  else match q.queues[key]? with
    | some queue =>
      .ok { q with len := q.len + 1, queues := q.queues.insert key (queue ++ [value]) }
    | none =>
      .ok { q with
        len := q.len + 1
        active := q.active ++ [key]
        queues := q.queues.insert key [value] }

/-- A key that still has items goes to the back of the active list. The last
case is the two `expect`s: an active key has a queue and an item. -/
def pop (q : FairQueueState κ ν) : Option (ν × FairQueueState κ ν) :=
  match q.active with
  | [] => none
  | key :: rest =>
    match q.queues[key]? with
    | some (value :: tail) =>
      if tail.isEmpty then
        some (value, { q with
          len := q.len - 1, active := rest, queues := q.queues.erase key })
      else
        some (value, { q with
          len := q.len - 1, active := rest ++ [key], queues := q.queues.insert key tail })
    | _ => none

/-- What links the four fields. -/
structure Valid (q : FairQueueState κ ν) : Prop where
  nodup : q.active.Nodup
  active_iff : ∀ key : κ, key ∈ q.active ↔ q.items key ≠ []
  nonempty : ∀ key : κ, q.queues[key]? ≠ some []
  len_eq : q.len = (q.active.map fun key => (q.items key).length).sum
  len_le : q.len ≤ q.capacity

theorem valid_new (capacity : Nat) : (new capacity : FairQueueState κ ν).Valid where
  nodup := nodup_nil
  active_iff key := by simp [new, items]
  nonempty key := by simp [new]
  len_eq := rfl
  len_le := Nat.zero_le _

variable {key : κ} {q : FairQueueState κ ν}

theorem getElem?_eq_some_iff (hValid : q.Valid) {queue : List ν} :
    q.queues[key]? = some queue ↔ q.items key = queue ∧ queue ≠ [] := by
  unfold items
  cases h : q.queues[key]? with
  | none => simp [eq_comm]
  | some =>
    have hNe := hValid.nonempty key
    rw [h] at hNe
    simp only [Option.some.injEq, Option.getD_some]
    constructor
    · rintro rfl
      exact ⟨rfl, fun hNil => hNe (by rw [hNil])⟩
    · exact fun hq => hq.1

/-- On a valid queue neither `expect` can fail: only the empty queue has nothing
to pop. -/
theorem Valid.pop_eq_none_iff (hValid : q.Valid) : q.pop = none ↔ q.len = 0 := by
  have hLen := hValid.len_eq
  unfold FairQueueState.pop
  cases hActive : q.active with
  | nil => simpa [hActive] using hLen
  | cons key _ =>
    have hNe : q.items key ≠ [] := (hValid.active_iff key).mp (by simp [hActive])
    have hQueue : q.queues[key]? = some (q.items key) :=
      (getElem?_eq_some_iff hValid).mpr ⟨rfl, hNe⟩
    obtain ⟨_, _, hItems⟩ := exists_cons_of_ne_nil hNe
    have hPos : q.len ≠ 0 := by
      rw [hLen, hActive, map_cons, sum_cons, hItems, length_cons]
      omega
    simp only [hQueue, hItems, hPos, iff_false]
    split_ifs <;> simp

/-! ## One key at a time -/

variable [LawfulEqOrd κ] [DecidableEq κ] {q' : FairQueueState κ ν} {value : ν}

theorem items_insert (q : FairQueueState κ ν) (key k : κ) (queue : List ν) (len : Nat)
    (active : List κ) :
    items { q with len, active, queues := q.queues.insert key queue } k =
      if k = key then queue else q.items k := by
  unfold items
  rw [ExtTreeMap.getElem?_insert]
  by_cases h : k = key
  · simp [h]
  · simp [h, Ne.symm h]

theorem items_erase (q : FairQueueState κ ν) (key k : κ) (len : Nat) (active : List κ) :
    items { q with len, active, queues := q.queues.erase key } k =
      if k = key then [] else q.items k := by
  unfold items
  rw [ExtTreeMap.getElem?_erase]
  by_cases h : k = key
  · simp [h]
  · simp [h, Ne.symm h]

theorem items_push (h : q.push key value = .ok q') (k : κ) :
    q'.items k = if k = key then q.items k ++ [value] else q.items k := by
  unfold push at h
  split_ifs at h
  split at h
  all_goals
    rename_i hKey
    cases h
    rw [items_insert]
    split_ifs with hk
    · simp [items, hk, hKey]
    · rfl

theorem pop_front (h : q.pop = some (value, q')) :
    ∃ key rest, q.active = key :: rest ∧
      (q'.active = rest ∧ q'.items key = [] ∨ q'.active = rest ++ [key]) ∧
      q.items key = value :: q'.items key ∧ ∀ k, k ≠ key → q'.items k = q.items k := by
  unfold pop at h
  split at h
  · cases h
  · rename_i key rest hActive
    split at h
    · rename_i v tail hQueue
      have hItems : q.items key = v :: tail := by simp [items, hQueue]
      split_ifs at h with hTail
      · cases h
        refine ⟨key, rest, hActive, .inl ⟨rfl, ?_⟩, ?_, fun k hk => ?_⟩
        · rw [items_erase, if_pos rfl]
        · rw [items_erase, if_pos rfl, hItems, isEmpty_iff.mp hTail]
        · rw [items_erase, if_neg hk]
      · cases h
        refine ⟨key, rest, hActive, .inr rfl, ?_, fun k hk => ?_⟩
        · rw [items_insert, if_pos rfl, hItems]
        · rw [items_insert, if_neg hk]
    · cases h

omit [LawfulEqOrd κ] [DecidableEq κ] in
theorem push_counts (h : q.push key value = .ok q') :
    q'.len = q.len + 1 ∧ q'.capacity = q.capacity := by
  unfold push at h
  split_ifs at h
  split at h <;> cases h <;> exact ⟨rfl, rfl⟩

omit [LawfulEqOrd κ] [DecidableEq κ] in
theorem pop_counts (h : q.pop = some (value, q')) :
    q'.len = q.len - 1 ∧ q'.capacity = q.capacity := by
  unfold pop at h
  split at h
  · cases h
  · split at h
    · split_ifs at h <;> cases h <;> exact ⟨rfl, rfl⟩
    · cases h

/-! ## Weights -/

/-- The total weight of the queued items. -/
def weight (q : FairQueueState κ ν) (f : ν → Nat) : Nat :=
  (q.active.map fun key => ((q.items key).map f).sum).sum

theorem Valid.weight_push (hValid : q.Valid) (h : q.push key value = .ok q') (f : ν → Nat) :
    q'.weight f = q.weight f + f value := by
  have hItems := items_push h
  unfold FairQueueState.push at h
  split_ifs at h
  unfold weight
  simp only [hItems]
  split at h
  · rename_i hQueue
    cases h
    obtain ⟨hOld, hNe⟩ := (getElem?_eq_some_iff hValid).mp hQueue
    have hMem : key ∈ q.active := (hValid.active_iff key).mpr (hOld ▸ hNe)
    exact sum_weight_concat hValid.nodup hMem q.items value f
  · rename_i hQueue
    cases h
    have hOld : q.items key = [] := by simp [items, hQueue]
    have hNotMem : key ∉ q.active := fun hMem => (hValid.active_iff key).mp hMem hOld
    have hRest : (q.active.map fun k =>
        ((if k = key then q.items k ++ [value] else q.items k).map f).sum) =
        q.active.map fun k => ((q.items k).map f).sum := by
      apply map_congr_left
      intro k hk
      rw [if_neg (fun hEq : k = key => hNotMem (hEq ▸ hk))]
    simp only [map_append, sum_append, map_cons, map_nil, sum_cons,
      sum_nil, if_true, hOld, hRest, nil_append, Nat.add_zero]

theorem Valid.weight_pop (hValid : q.Valid) (h : q.pop = some (value, q')) (f : ν → Nat) :
    q.weight f = q'.weight f + f value := by
  obtain ⟨key, rest, hActive, hNext, hItems, hOthers⟩ := pop_front h
  have hNodup := nodup_cons.mp (hActive ▸ hValid.nodup)
  -- the FIFOs of the other keys weigh what they did
  have hRest : (rest.map fun k => ((q'.items k).map f).sum) =
      rest.map fun k => ((q.items k).map f).sum :=
    map_congr_left fun k hk => by rw [hOthers k fun hEq => hNodup.1 (hEq ▸ hk)]
  rw [weight, weight, hActive, map_cons, sum_cons, hItems, map_cons, sum_cons]
  rcases hNext with ⟨hNext, hNil⟩ | hNext
  · rw [hNext, hRest, hNil, map_nil, sum_nil]
    omega
  · rw [hNext, map_append, sum_append, hRest, map_singleton, sum_singleton]
    omega

omit [LawfulEqOrd κ] [DecidableEq κ] in
/-- The queued items, each of which counts for one. -/
theorem Valid.weight_one (hValid : q.Valid) : q.weight (fun _ => 1) = q.len := by
  simp [weight, hValid.len_eq]

/-! ## Validity -/

theorem Valid.push (hValid : q.Valid) (h : q.push key value = .ok q') : q'.Valid := by
  have hItems := items_push h
  have hLen := hValid.weight_push h fun _ => 1
  rw [hValid.weight_one] at hLen
  simp only [weight, map_const', sum_replicate_nat, Nat.mul_one] at hLen
  unfold FairQueueState.push at h
  split_ifs at h with hFull
  have hRoom : q.len + 1 ≤ q.capacity := by
    have := hValid.len_le
    omega
  split at h
  · -- The key is active already: its FIFO grows by one.
    rename_i hQueue
    cases h
    obtain ⟨hOld, hNe⟩ := (getElem?_eq_some_iff hValid).mp hQueue
    refine ⟨hValid.nodup, ?_, ?_, ?_, hRoom⟩
    · intro k
      rw [hItems k, hValid.active_iff]
      split_ifs with hk
      · subst hk
        simp [hOld, hNe]
      · rfl
    · intro k
      rw [ExtTreeMap.getElem?_insert]
      split_ifs
      · simp
      · exact hValid.nonempty k
    · exact hLen.symm
  · -- A new key joins the active list.
    rename_i hQueue
    cases h
    have hOld : q.items key = [] := by simp [items, hQueue]
    have hNotMem : key ∉ q.active := fun hMem => (hValid.active_iff key).mp hMem hOld
    refine ⟨?_, ?_, ?_, ?_, hRoom⟩
    · exact nodup_append.mpr ⟨hValid.nodup, by simp, by
        intro _ ha _ hb
        rw [mem_singleton.mp hb]
        exact fun hEq => hNotMem (hEq ▸ ha)⟩
    · intro k
      rw [hItems k]
      split_ifs with hk
      · simp [hk]
      · simp [hk, hValid.active_iff]
    · intro k
      rw [ExtTreeMap.getElem?_insert]
      split_ifs
      · simp
      · exact hValid.nonempty k
    · exact hLen.symm

theorem Valid.pop (hValid : q.Valid) (h : q.pop = some (value, q')) : q'.Valid := by
  have hLen := hValid.weight_pop h fun _ => 1
  rw [hValid.weight_one] at hLen
  simp only [weight, map_const', sum_replicate_nat, Nat.mul_one] at hLen
  unfold FairQueueState.pop at h
  split at h
  · cases h
  · rename_i key rest hActive
    split at h
    · rename_i tail hQueue
      have hNodup : key ∉ rest ∧ rest.Nodup := nodup_cons.mp (hActive ▸ hValid.nodup)
      have hLe := hValid.len_le
      have hOther : ∀ k, k ≠ key → (k ∈ rest ↔ q.items k ≠ []) := by
        intro _ hk
        rw [← hValid.active_iff, hActive, mem_cons, or_iff_right hk]
      split_ifs at h with hTail
      · cases h
        refine ⟨hNodup.2, ?_, ?_, ?_, ?_⟩
        · intro k
          rw [items_erase]
          split_ifs with hk
          · simp [hk, hNodup.1]
          · exact hOther k hk
        · intro k
          rw [ExtTreeMap.getElem?_erase]
          split_ifs
          · simp
          · exact hValid.nonempty k
        · exact Nat.sub_eq_of_eq_add hLen
        · dsimp only
          omega
      · cases h
        have hNe : tail ≠ [] := fun hNil => hTail (isEmpty_iff.mpr hNil)
        refine ⟨?_, ?_, ?_, ?_, ?_⟩
        · exact (perm_append_singleton key rest).nodup_iff.mpr
            (nodup_cons.mpr hNodup)
        · intro k
          rw [items_insert]
          split_ifs with hk
          · simp [hk, hNe]
          · simp [hk, hOther k hk]
        · intro k
          rw [ExtTreeMap.getElem?_insert]
          split_ifs
          · simpa using hNe
          · exact hValid.nonempty k
        · exact Nat.sub_eq_of_eq_add hLen
        · dsimp only
          omega
    · cases h

end FairQueueState

/-! ## The queue with its validity -/

/-- A fair queue that was built by `push` and `pop`. -/
def BoundedFairQueue (κ ν : Type) [Ord κ] [TransOrd κ] :=
  { q : FairQueueState κ ν // q.Valid }

namespace BoundedFairQueue

variable {q q' : BoundedFairQueue κ ν}

@[ext] theorem ext (h : q.1 = q'.1) : q = q' := Subtype.ext h

def new (capacity : Nat) : BoundedFairQueue κ ν :=
  ⟨FairQueueState.new capacity, FairQueueState.valid_new capacity⟩

def len (q : BoundedFairQueue κ ν) : Nat := q.1.len

def capacity (q : BoundedFairQueue κ ν) : Nat := q.1.capacity

def isEmpty (q : BoundedFairQueue κ ν) : Bool := q.len = 0

def items (q : BoundedFairQueue κ ν) (key : κ) : List ν := q.1.items key

@[simp] theorem items_new (capacity : Nat) (key : κ) :
    (new capacity : BoundedFairQueue κ ν).items key = [] := by
  simp [new, items, FairQueueState.new, FairQueueState.items]

variable [LawfulEqOrd κ] [DecidableEq κ] {key : κ} {value : ν}

def push (q : BoundedFairQueue κ ν) (key : κ) (value : ν) : Except ν (BoundedFairQueue κ ν) :=
  match h : q.1.push key value with
  | .ok q' => .ok ⟨q', q.2.push h⟩
  | .error rejected => .error rejected

def pop (q : BoundedFairQueue κ ν) : Option (ν × BoundedFairQueue κ ν) :=
  match h : q.1.pop with
  | some (value, q') => some (value, ⟨q', q.2.pop h⟩)
  | none => none

theorem val_push (h : q.push key value = .ok q') : q.1.push key value = .ok q'.1 := by
  unfold push at h
  split at h
  · rename_i hPush
    cases h
    exact hPush
  · cases h

theorem val_pop (h : q.pop = some (value, q')) : q.1.pop = some (value, q'.1) := by
  unfold pop at h
  split at h
  · rename_i hPop
    cases h
    exact hPop
  · cases h

/-- A push appends to the FIFO of its key and leaves the other keys alone. -/
theorem items_push (h : q.push key value = .ok q') (k : κ) :
    q'.items k = if k = key then q.items k ++ [value] else q.items k :=
  FairQueueState.items_push (val_push h) k

/-- A pop takes the head of one key's FIFO and leaves the other keys alone. -/
theorem items_pop (h : q.pop = some (value, q')) :
    ∃ key, q.items key = value :: q'.items key ∧ ∀ k, k ≠ key → q'.items k = q.items k := by
  obtain ⟨key, -, -, -, hItems⟩ := FairQueueState.pop_front (val_pop h)
  exact ⟨key, hItems⟩

/-- Only the empty queue has nothing to pop: the `expect`s of `pop` never fail. -/
theorem pop_eq_none_iff : q.pop = none ↔ q.len = 0 := by
  rw [len, ← q.2.pop_eq_none_iff]
  unfold pop
  split
  · rename_i hPop
    simp [hPop]
  · rename_i hPop
    simp [hPop]

theorem push_counts (h : q.push key value = .ok q') :
    q'.len = q.len + 1 ∧ q'.capacity = q.capacity :=
  FairQueueState.push_counts (val_push h)

theorem len_push (h : q.push key value = .ok q') : q'.len = q.len + 1 := (push_counts h).1

/-- A queue below its bound takes any value. -/
theorem push_ok (h : q.len < q.capacity) (key : κ) (value : ν) :
    ∃ q', q.push key value = .ok q' := by
  unfold push
  split
  · exact ⟨_, rfl⟩
  · rename_i hPush
    unfold FairQueueState.push at hPush
    split at hPush
    · rename_i hFull
      exact absurd hFull (Nat.ne_of_lt h)
    · split at hPush <;> cases hPush

theorem pop_counts (h : q.pop = some (value, q')) :
    q.len = q'.len + 1 ∧ q'.capacity = q.capacity := by
  have hPos : q.len ≠ 0 := by
    rw [Ne, ← pop_eq_none_iff, h]
    simp
  have hFields : q'.len = q.len - 1 ∧ q'.capacity = q.capacity :=
    FairQueueState.pop_counts (val_pop h)
  exact ⟨by omega, hFields.2⟩

theorem len_pop (h : q.pop = some (value, q')) : q.len = q'.len + 1 := (pop_counts h).1

omit [LawfulEqOrd κ] [DecidableEq κ] in
theorem items_of_len_zero (h : q.len = 0) (key : κ) : q.items key = [] := by
  by_contra hItems
  have hActive : key ∈ q.1.active := (q.2.active_iff key).mpr hItems
  have hLen : (q.1.items key).length ≤ (q.1.active.map fun k => (q.1.items k).length).sum :=
    single_le_sum (by simp) _ (mem_map_of_mem hActive)
  have hPos : 0 < (q.1.items key).length := length_pos_iff.mpr hItems
  have hSum := q.2.len_eq
  rw [show q.1.len = 0 from h] at hSum
  omega

/-- The total weight of the queued items. -/
def weight (q : BoundedFairQueue κ ν) (f : ν → Nat) : Nat := q.1.weight f

theorem weight_push (h : q.push key value = .ok q') (f : ν → Nat) :
    q'.weight f = q.weight f + f value :=
  q.2.weight_push (val_push h) f

theorem weight_pop (h : q.pop = some (value, q')) (f : ν → Nat) :
    q.weight f = q'.weight f + f value :=
  q.2.weight_pop (val_pop h) f

end BoundedFairQueue

end TunnelProxy.Common
