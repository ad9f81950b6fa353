import TunnelProxy.Common.FairQueue
import TunnelProxy.Lib.RoundRobin
import TunnelProxy.Lib.Transition

/-!
# Every history of a fair queue

`FairHistory` is a queue with what was pushed and popped so far, and `step` is one operation
on it; `none` is the failure of an `expect`.

The queue never fails, loses nothing, keeps the order of each key and its counters
(`Recorded`). Between two pops of a key, another key that stays active is popped; and exactly
once while the first key stays active too (`fair_queue_contract`). A key that runs empty in
between has no claim on that: the others go on being served (`fair_queue_skips_idle_key`).
-/

namespace TunnelProxy.Common

open Std RoundRobin Transition List

variable {κ ν : Type} [Ord κ] [TransOrd κ] [LawfulEqOrd κ] [DecidableEq κ]

namespace FairQueueState

variable {q q' : FairQueueState κ ν} {value : ν}

/-! ## The rotation of the active keys -/

omit [LawfulEqOrd κ] [DecidableEq κ] in
theorem push_turn {key : κ} (hValid : q.Valid) (h : q.push key value = .ok q') :
    Turn q.active none q'.active := by
  unfold push at h
  split_ifs at h
  split at h
  · cases h
    exact .keep
  · rename_i hQueue
    cases h
    refine .join key fun hMem => (hValid.active_iff key).mp hMem ?_
    simp [items, hQueue]

/-- A pop serves the front of the active keys and takes the head of its FIFO. -/
theorem pop_turn (h : q.pop = some (value, q')) :
    ∃ key, Turn q.active (some key) q'.active ∧ q.items key = value :: q'.items key ∧
      ∀ k, k ≠ key → q'.items k = q.items k := by
  obtain ⟨front, rest, hActive, ⟨hNext, -⟩ | hNext, hItems⟩ := pop_front h
  · exact ⟨front, hNext ▸ .leave front rest hActive, hItems⟩
  · exact ⟨front, hNext ▸ .rejoin front rest hActive, hItems⟩

end FairQueueState

namespace BoundedFairQueue

/-- `active_keys` -/
def activeKeys (q : BoundedFairQueue κ ν) : Nat := q.1.active.length

variable {q q' : BoundedFairQueue κ ν} {value : ν}

omit [LawfulEqOrd κ] [DecidableEq κ] in
theorem mem_active {key : κ} {rest : List ν} (h : q.items key = value :: rest) : key ∈ q.1.active :=
  (q.2.active_iff key).mpr fun hNone => cons_ne_nil value rest (h.symm.trans hNone)

theorem push_turn {key : κ} (h : q.push key value = .ok q') : Turn q.1.active none q'.1.active :=
  FairQueueState.push_turn q.2 (val_push h)

theorem pop_turn (h : q.pop = some (value, q')) :
    ∃ key, Turn q.1.active (some key) q'.1.active ∧ q.items key = value :: q'.items key ∧
      ∀ k, k ≠ key → q'.items k = q.items k :=
  FairQueueState.pop_turn (val_pop h)

end BoundedFairQueue

/-! ## Histories -/

/-- A queue with the items it has accepted and given back, each with its key. -/
structure FairHistory (κ ν : Type) [Ord κ] [TransOrd κ] where
  queue : FairQueueState κ ν
  pushed : List (κ × ν)
  popped : List (κ × ν)

inductive FairOp (κ ν : Type) where
  | push (key : κ) (value : ν)
  | pop
deriving DecidableEq

namespace FairHistory

def new (capacity : Nat) : FairHistory κ ν := ⟨.new capacity, [], []⟩

/-- A refused push changes nothing, and a pop of the empty queue returns nothing. -/
def step (s : FairHistory κ ν) : FairOp κ ν → Option (FairHistory κ ν)
  | .push key value =>
    match s.queue.push key value with
    | .ok queue => some { s with queue, pushed := s.pushed ++ [(key, value)] }
    | .error _ => some s
  | .pop =>
    match s.queue.active, s.queue.pop with
    | [], _ => some s
    | key :: _, some (value, queue) =>
      some { s with queue, popped := s.popped ++ [(key, value)] }
    | _ :: _, none => none

/-- How often a key was popped. -/
def pops (s : FairHistory κ ν) (key : κ) : Nat := (s.popped.map Prod.fst).count key

/-- What was pushed under a key was popped, in that order, or waits in its FIFO. -/
structure Recorded (capacity : Nat) (s : FairHistory κ ν) : Prop where
  valid : s.queue.Valid
  capacity_eq : s.queue.capacity = capacity
  fifo : ∀ key, (s.pushed.filter (·.1 = key)).map Prod.snd =
    (s.popped.filter (·.1 = key)).map Prod.snd ++ s.queue.items key

variable {capacity : Nat} {s s' s₁ s₂ : FairHistory κ ν} {op : FairOp κ ν} {j k : κ}
  {more : List (FairOp κ ν)}

/-- What a step does: it keeps the history, accepts an item, or serves the front. -/
inductive Effect (s : FairHistory κ ν) : FairHistory κ ν → Prop where
  | same : Effect s s
  | accepted (key : κ) (value : ν) (queue : FairQueueState κ ν)
      (hPush : s.queue.push key value = .ok queue) :
      Effect s { s with queue := queue, pushed := s.pushed ++ [(key, value)] }
  | served (key : κ) (value : ν) (queue : FairQueueState κ ν)
      (hPop : s.queue.pop = some (value, queue))
      (hTurn : Turn s.queue.active (some key) queue.active)
      (hHead : s.queue.items key = value :: queue.items key)
      (hOthers : ∀ k, k ≠ key → queue.items k = s.queue.items k) :
      Effect s { s with queue := queue, popped := s.popped ++ [(key, value)] }

/-- Neither `expect` fails on a valid queue. -/
theorem step_effect (hValid : s.queue.Valid) (op : FairOp κ ν) :
    ∃ s', step s op = some s' ∧ Effect s s' := by
  cases op with
  | push key value =>
    cases hPush : s.queue.push key value with
    | ok queue => exact ⟨_, by simp only [step, hPush], .accepted key value queue hPush⟩
    | error => exact ⟨_, by simp only [step, hPush], .same⟩
  | pop =>
    cases hPop : s.queue.pop with
    | none =>
      have hEmpty : s.queue.active = [] := by
        have hLen := hValid.pop_eq_none_iff.mp hPop
        rw [hValid.len_eq] at hLen
        by_contra hNe
        obtain ⟨key, _, hActive⟩ := exists_cons_of_ne_nil hNe
        have hItems : s.queue.items key ≠ [] := (hValid.active_iff key).mp (by simp [hActive])
        have hPos := length_pos_iff.mpr hItems
        rw [hActive, map_cons, sum_cons] at hLen
        omega
      exact ⟨s, by simp only [step, hEmpty], .same⟩
    | some answer =>
      obtain ⟨value, queue⟩ := answer
      obtain ⟨key, hTurn, hHead, hOthers⟩ := FairQueueState.pop_turn hPop
      obtain ⟨_, hActive⟩ := hTurn.front
      exact ⟨_, by simp only [step, hActive, hPop],
        .served key value queue hPop hTurn hHead hOthers⟩

theorem effect_of_step (hValid : s.queue.Valid) (h : step s op = some s') : Effect s s' := by
  obtain ⟨_, hStep, hEffect⟩ := step_effect hValid op
  cases hStep.symm.trans h
  exact hEffect

omit [LawfulEqOrd κ] in
theorem Recorded.new (capacity : Nat) : Recorded capacity (new capacity : FairHistory κ ν) where
  valid := FairQueueState.valid_new capacity
  capacity_eq := rfl
  fifo key := by simp [FairHistory.new, FairQueueState.new, FairQueueState.items]

theorem Recorded.effect (h : Recorded capacity s) (hEffect : Effect s s') :
    Recorded capacity s' := by
  cases hEffect with
  | same => exact h
  | accepted key value _ hPush =>
    refine ⟨h.valid.push hPush,
      (FairQueueState.push_counts hPush).2.trans h.capacity_eq, fun k => ?_⟩
    have hItems := FairQueueState.items_push hPush k
    have hFifo := h.fifo k
    show ((s.pushed ++ [(key, value)]).filter (·.1 = k)).map Prod.snd = _
    rw [filter_append, map_append, hFifo, hItems]
    by_cases hk : key = k
    · simp [hk]
    · simp [hk, Ne.symm hk]
  | served key value queue hPop _ hHead hOthers =>
    refine ⟨h.valid.pop hPop,
      (FairQueueState.pop_counts hPop).2.trans h.capacity_eq, fun k => ?_⟩
    have hFifo := h.fifo k
    show _ = ((s.popped ++ [(key, value)]).filter (·.1 = k)).map Prod.snd ++ queue.items k
    rw [filter_append, map_append, hFifo]
    by_cases hk : key = k
    · subst hk
      simp [hHead]
    · simp [hk, hOthers k (Ne.symm hk)]

theorem Recorded.run (h : Recorded capacity s) (ops : List (FairOp κ ν)) :
    ∃ s', exec step s ops = some s' ∧ Recorded capacity s' := by
  induction ops generalizing s with
  | nil => exact ⟨s, rfl, h⟩
  | cons op _ ih =>
    obtain ⟨s₁, hStep, hEffect⟩ := step_effect h.valid op
    obtain ⟨s', hRest, hRecorded⟩ := ih (h.effect hEffect)
    exact ⟨s', exec_cons_eq_some.mpr ⟨s₁, hStep, hRest⟩, hRecorded⟩

omit [LawfulEqOrd κ] in
/-- The turn of the rotation in a step, with the key whose count goes up. -/
theorem Effect.turn (hValid : s.queue.Valid) (hEffect : Effect s s') :
    ∃ served, Turn s.queue.active served s'.queue.active ∧
      ∀ key, s'.pops key = s.pops key + (if served = some key then 1 else 0) := by
  cases hEffect with
  | same => exact ⟨none, .keep, fun key => by simp⟩
  | accepted _ _ _ hPush =>
    exact ⟨none, FairQueueState.push_turn hValid hPush, fun k => by simp [pops]⟩
  | served key _ _ _ hTurn =>
    refine ⟨some key, hTurn, fun k => ?_⟩
    unfold pops
    simp only [map_append, count_append, map_cons, map_nil,
      count_singleton, Option.some.injEq, beq_iff_eq]

/-! ## Fairness -/

/-- `j` is active before the operation. -/
def Active (j : κ) (s : FairHistory κ ν) (_ : FairOp κ ν) : Prop := j ∈ s.queue.active

instance (j : κ) (s : FairHistory κ ν) (op : FairOp κ ν) : Decidable (Active j s op) :=
  inferInstanceAs (Decidable (_ ∈ _))

/-- `j` has been popped since `s₁`, or is before `k`. -/
structure Due (j k : κ) (s₁ s : FairHistory κ ν) : Prop where
  valid : s.queue.Valid
  due : s₁.pops j + 1 ≤ s.pops j ∨
    s.pops j = s₁.pops j ∧ (k ∈ s.queue.active → [j, k].Sublist s.queue.active)

omit [LawfulEqOrd κ] in
theorem Due.step (h : Due j k s₁ s) (hActive : j ∈ s.queue.active)
    (hEffect : Effect s s') (hRecorded : s'.queue.Valid) : Due j k s₁ s' := by
  obtain ⟨served, hTurn, hPops⟩ := hEffect.turn h.valid
  refine ⟨hRecorded, ?_⟩
  rcases h.due with _ | ⟨_, hBefore⟩
  · have hMore := hPops j
    exact .inl (by omega)
  · by_cases hj : served = some j
    · have hMore := hPops j
      rw [if_pos hj] at hMore
      exact .inl (by omega)
    · have hStill := hPops j
      rw [if_neg hj] at hStill
      refine .inr ⟨by omega, fun hk => ?_⟩
      by_cases hWas : k ∈ s.queue.active
      · exact hTurn.keeps (hBefore hWas) hj
      · -- `k` has just joined, behind `j`
        cases served with
        | none => exact hTurn.before_of_join hActive hWas hk
        | some => exact absurd (hTurn.mem_of_mem hk) hWas

/-- `j` is before `k`, or has been popped once since `s₁` and is behind it. -/
structure Alternates (j k : κ) (s₁ s : FairHistory κ ν) : Prop where
  valid : s.queue.Valid
  later : s₁.pops k ≤ s.pops k
  turns : s.pops k = s₁.pops k → s.pops j = s₁.pops j ∧ (k ∈ s.queue.active → j ∈ s.queue.active →
      [j, k].Sublist s.queue.active) ∨
    s.pops j = s₁.pops j + 1 ∧ (k ∈ s.queue.active → j ∈ s.queue.active →
      [k, j].Sublist s.queue.active)

omit [LawfulEqOrd κ] in
theorem Alternates.step (hNe : j ≠ k) (h : Alternates j k s₁ s) (hj : j ∈ s.queue.active)
    (hk : k ∈ s.queue.active) (hEffect : Effect s s') (hValid : s'.queue.Valid) :
    Alternates j k s₁ s' := by
  obtain ⟨served, hTurn, hPops⟩ := hEffect.turn h.valid
  have hLater := h.later
  have hMoreK := hPops k
  have hMoreJ := hPops j
  refine ⟨hValid, by omega, fun hNone => ?_⟩
  -- `k` was not served, in this step or before
  have hNotK : served ≠ some k := by
    intro hServed
    rw [if_pos hServed] at hMoreK
    omega
  rw [if_neg hNotK] at hMoreK
  rcases h.turns (by omega) with ⟨_, hBefore⟩ | ⟨_, hBehind⟩
  · by_cases hServed : served = some j
    · rw [if_pos hServed] at hMoreJ
      subst hServed
      exact .inr ⟨by omega, fun _ hStays => hTurn.passes h.valid.nodup (hBefore hk hj) hStays⟩
    · rw [if_neg hServed] at hMoreJ
      exact .inl ⟨by omega, fun _ _ => hTurn.keeps (hBefore hk hj) hServed⟩
  · have hServed : served ≠ some j := by
      -- `k` is before `j`, so `j` is not the front
      intro hServed
      subst hServed
      obtain ⟨_, hActive⟩ := hTurn.front
      have hNodup := h.valid.nodup
      rw [hActive] at hNodup
      exact not_before_front hNodup hNe.symm (hActive ▸ hBehind hk hj)
    rw [if_neg hServed] at hMoreJ
    exact .inr ⟨by omega, fun _ _ => hTurn.keeps (hBehind hk hj) hNotK⟩

section

variable (hRecorded : Recorded capacity s)
include hRecorded

/-- A pop that adds to the count of `k` serves it. -/
theorem turn_of_pops (h : step s op = some s')
    (hPops : s'.pops k = s.pops k + 1) :
    Turn s.queue.active (some k) s'.queue.active ∧ ∀ key, key ≠ k → s'.pops key = s.pops key := by
  obtain ⟨served, hTurn, hCounts⟩ := (effect_of_step hRecorded.valid h).turn hRecorded.valid
  have hServed : served = some k := by
    by_contra hNot
    have hSame := hCounts k
    rw [if_neg hNot] at hSame
    omega
  subst hServed
  refine ⟨hTurn, fun key hNe => ?_⟩
  rw [hCounts key, if_neg fun hEq => hNe (Option.some.inj hEq).symm, Nat.add_zero]

/-- From the pop of `k` that leads to `s₁` on, with what each step keeps. -/
theorem after_pop {P : FairHistory κ ν → Prop} {G : FairHistory κ ν → FairOp κ ν → Prop}
    (hFirst : step s .pop = some s₁)
    (hPopped : s₁.pops k = s.pops k + 1) (hMore : exec step s₁ more = some s₂)
    (hGuard : Guarded step G s₁ more)
    (hStart : Turn s.queue.active (some k) s₁.queue.active → s₁.queue.Valid → P s₁)
    (hStep : ∀ {t op t'}, P t → G t op → Effect t t' → t'.queue.Valid → P t') : P s₂ := by
  have hValid := hRecorded.effect (effect_of_step hRecorded.valid hFirst)
  obtain ⟨hTurn, -⟩ := turn_of_pops hRecorded hFirst hPopped
  refine (exec_induction_guarded (P := fun s => P s ∧ Recorded capacity s) ?_
    ⟨hStart hTurn hValid.valid, hValid⟩ hGuard hMore).1
  rintro _ _ _ ⟨hP, hRec⟩ hG hTake
  have hEffect := effect_of_step hRec.valid hTake
  have hRec' := hRec.effect hEffect
  exact ⟨hStep hP hG hEffect hRec'.valid, hRec'⟩

end

end FairHistory

open FairHistory in
/-- For every capacity and every list of operations on a new queue: no `expect` fails; the
length counts the queued items and is within the capacity; the active list names each key with
a non-empty FIFO once; what was pushed under a key was popped in that order or is queued; a
refused push returns its item, of a full queue, and changes nothing. And from a pop of `k` to
the next one, a key `j` that stays active is popped at least once, and exactly once if `k`
stays active as well. -/
theorem fair_queue_contract (capacity : Nat) (ops : List (FairOp κ ν)) :
    ∃ s : FairHistory κ ν, exec step (new capacity) ops = some s ∧
      s.queue.len = (s.queue.active.map fun key => (s.queue.items key).length).sum ∧
      s.queue.len ≤ capacity ∧
      s.queue.active.Nodup ∧ (∀ key, key ∈ s.queue.active ↔ s.queue.items key ≠ []) ∧
      (∀ key, (s.pushed.filter (·.1 = key)).map Prod.snd =
        (s.popped.filter (·.1 = key)).map Prod.snd ++ s.queue.items key) ∧
      (∀ key value rejected, s.queue.push key value = .error rejected →
        rejected = value ∧ s.queue.len = capacity ∧ step s (.push key value) = some s) ∧
      ∀ k j s₁ more s₂ s₃, j ≠ k → step s .pop = some s₁ → s₁.pops k = s.pops k + 1 →
        exec step s₁ more = some s₂ → s₂.pops k = s₁.pops k →
        step s₂ .pop = some s₃ → s₃.pops k = s₂.pops k + 1 →
        Guarded step (Active j) s₁ (more ++ [.pop]) →
        s₁.pops j + 1 ≤ s₂.pops j ∧
        (Guarded step (Active k) s₁ (more ++ [.pop]) → s₂.pops j = s₁.pops j + 1) := by
  obtain ⟨s, hRun, hRecorded⟩ := (Recorded.new capacity : Recorded capacity (new capacity)).run ops
  refine ⟨s, hRun, hRecorded.valid.len_eq, hRecorded.capacity_eq ▸ hRecorded.valid.len_le,
    hRecorded.valid.nodup, hRecorded.valid.active_iff, hRecorded.fifo, ?_, ?_⟩
  · intro key value _ hError
    have hStays : step s (.push key value) = some s := by simp only [step, hError]
    unfold FairQueueState.push at hError
    split_ifs at hError with hFull
    · cases hError
      exact ⟨rfl, hFull.trans hRecorded.capacity_eq, hStays⟩
    · split at hError <;> cases hError
  · intro k j s₁ more s₂ _ hNe hFirst hPopped hMore hNone hLast hAgain hActive
    have hRecorded₁ := hRecorded.effect (effect_of_step hRecorded.valid hFirst)
    obtain ⟨_, hMore', hRecorded₂⟩ := hRecorded₁.run more
    cases hMore'.symm.trans hMore
    -- `k` is the front of the rotation at its second pop, so `j` is not before it
    obtain ⟨rest, hFront⟩ := (turn_of_pops hRecorded₂ hLast hAgain).1.front
    have hNodup := hRecorded₂.valid.nodup
    rw [hFront] at hNodup
    have hNotBefore : ¬ [j, k].Sublist s₂.queue.active := by
      rw [hFront]
      exact not_before_front hNodup hNe
    have hk : k ∈ s₂.queue.active := by rw [hFront]; exact mem_cons_self
    have hj : j ∈ s₂.queue.active := (hActive.rest hMore).1
    have hStart : j ∈ s₁.queue.active := by
      cases more with
      | nil => exact hActive.1
      | cons => exact hActive.1
    constructor
    · have hDue : Due j k s₁ s₂ := after_pop hRecorded hFirst hPopped hMore hActive.init
        (fun hTurn hValid => ⟨hValid, .inr ⟨rfl, hTurn.behind hRecorded.valid.nodup hNe hStart⟩⟩)
        fun hDue => hDue.step
      rcases hDue.due with hPops | ⟨-, hBefore⟩
      · exact hPops
      · exact absurd (hBefore hk) hNotBefore
    · intro hActiveK
      have hTurns : Alternates j k s₁ s₂ :=
        after_pop hRecorded hFirst hPopped hMore (hActive.and hActiveK).init
          (fun hTurn hValid => ⟨hValid, Nat.le_refl _, fun _ =>
            .inl ⟨rfl, fun hk hj => hTurn.behind hRecorded.valid.nodup hNe hj hk⟩⟩)
          fun hAlternates hBoth => hAlternates.step hNe hBoth.1 hBoth.2
      rcases hTurns.turns hNone with
        ⟨-, hBefore⟩ | ⟨hOnce, -⟩
      · exact absurd (hBefore hk hj) hNotBefore
      · exact hOnce

open FairHistory in
/-- A full queue of two keys after one pop: one item has gone, in order, and one push was
refused. -/
theorem fair_queue_contract_full : ∃ s : FairHistory Nat Nat, exec step (new 2)
        [.push 0 7, .push 1 8, .push 1 9, .pop] = some s ∧
      s.popped = [(0, 7)] ∧ s.queue.active = [1] ∧ s.queue.len ≤ 2 := by
  obtain ⟨s, hRun, -, hLen, -⟩ :=
    fair_queue_contract 2 ([.push 0 7, .push 1 8, .push 1 9, .pop] : List (FairOp Nat Nat))
  have hEnd : (exec step (new 2 : FairHistory Nat Nat)
      [.push 0 7, .push 1 8, .push 1 9, .pop]).any (fun s =>
        s.popped = [(0, 7)] && s.queue.active = [1]) = true := by
    decide +kernel
  rw [hRun, Option.any_some, Bool.and_eq_true] at hEnd
  exact ⟨s, hRun, of_decide_eq_true hEnd.1, of_decide_eq_true hEnd.2, hLen⟩

namespace FairExample

/-- One item of key 0 and four of key 1. -/
def filled : List (FairOp Nat Nat) := [.push 0 0, .push 1 1, .push 1 2, .push 1 3, .push 1 4]

/-- Key 0 comes back after two more pops. -/
def returning : List (FairOp Nat Nat) := [.pop, .pop, .push 0 5, .pop]

end FairExample

open FairHistory FairExample in
/-- Key 0 runs empty with its first pop; until its second, key 1, which stays active, is
popped three times. -/
theorem fair_queue_skips_idle_key :
    ∃ s s₁ s₂ s₃ : FairHistory Nat Nat, exec step (new 8) filled = some s ∧
      step s .pop = some s₁ ∧ s₁.pops 0 = s.pops 0 + 1 ∧
      exec step s₁ returning = some s₂ ∧ s₂.pops 0 = s₁.pops 0 ∧
      step s₂ .pop = some s₃ ∧ s₃.pops 0 = s₂.pops 0 + 1 ∧
      Guarded step (Active 1) s₁ (returning ++ [.pop]) ∧
      s₂.pops 1 = s₁.pops 1 + 3 := by
  obtain ⟨s, hs, s₁, hs₁, hFirst, hActive, s₂, hs₂, hNone, hThree, s₃, hs₃, hLast⟩ :
      ∃ s : FairHistory Nat Nat, exec step (new 8) filled = some s ∧
        ∃ s₁, step s .pop = some s₁ ∧ s₁.pops 0 = s.pops 0 + 1 ∧
          Guarded step (Active 1) s₁ (returning ++ [.pop]) ∧
        ∃ s₂, exec step s₁ returning = some s₂ ∧ s₂.pops 0 = s₁.pops 0 ∧
          s₂.pops 1 = s₁.pops 1 + 3 ∧
        ∃ s₃, step s₂ .pop = some s₃ ∧ s₃.pops 0 = s₂.pops 0 + 1 := by decide +kernel
  exact ⟨s, s₁, s₂, s₃, hs, hs₁, hFirst, hs₂, hNone, hs₃, hLast, hActive, hThree⟩

end TunnelProxy.Common
