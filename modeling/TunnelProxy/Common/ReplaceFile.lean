import TunnelProxy.Lib.Transition

/-!
# Replacing a file

`replace_file` writes the new content to a temporary file of its own, removes the target and
renames the temporary file to it. Each step is one file operation, so that a run that ends
anywhere is a process that stopped there. A rename is atomic, and what a stopped process has
written stays written.

* `Replacement.step_effect` — what one operation does to the target
* `Replacement.target_kept` — the target is old or new, unless the process stops or fails
  between the removal and the rename
* `Replacement.target_missing` — where it is neither
-/

namespace TunnelProxy.Common

open Transition

/-- The operation that comes next. -/
inductive ReplacePhase where
  | opening
  | writing
  | syncing
  | checking
  | removing
  | renaming
  /-- `remove_file(&temporary)`, after an error. -/
  | cleaning
  | finished (ok : Bool)
deriving DecidableEq

inductive FileOutcome where
  | succeed
  /-- One write of `write_all` that takes `n` bytes. -/
  | wrote (n : Nat)
  | fail
deriving DecidableEq

structure Replacement where
  bytes : List UInt8
  target : Option (List UInt8)
  temporary : Option (List UInt8)
  phase : ReplacePhase
deriving DecidableEq

namespace Replacement

def start (bytes : List UInt8) (target temporary : Option (List UInt8)) : Replacement :=
  ⟨bytes, target, temporary, .opening⟩

def step (r : Replacement) (outcome : FileOutcome) : Option Replacement :=
  match r.phase, outcome with
  | .opening, .succeed =>
    -- `create_new`
    if r.temporary = none then some { r with temporary := some [], phase := .writing } else none
  | .writing, .wrote n =>
    let length := (r.temporary.getD []).length + n
    some { r with
      temporary := some (r.bytes.take length)
      phase := if r.bytes.length ≤ length then .syncing else .writing }
  | .syncing, .succeed => some { r with phase := .checking }
  | .checking, .succeed =>
    some { r with phase := if r.target.isSome then .removing else .renaming }
  -- `exists` answers false when it cannot tell.
  | .checking, .fail => some { r with phase := .renaming }
  | .removing, .succeed =>
    if r.target = none then none else some { r with target := none, phase := .renaming }
  | .renaming, .succeed =>
    if r.temporary = none then none
    else some { r with target := r.temporary, temporary := none, phase := .finished true }
  | .cleaning, .succeed => some { r with temporary := none, phase := .finished false }
  | .cleaning, .fail => some { r with phase := .finished false }
  | .opening, .fail | .writing, .fail | .syncing, .fail | .removing, .fail | .renaming, .fail =>
    some { r with phase := .cleaning }
  | _, _ => none

/-- From the sync on the temporary file is complete. -/
def Prepared (r : Replacement) : Prop :=
  r.phase = .syncing ∨ r.phase = .checking ∨ r.phase = .removing ∨ r.phase = .renaming →
    r.temporary = some r.bytes

/-- What one operation does to the target: nothing, the removal, or the rename. -/
inductive Effect (r r' : Replacement) (outcome : FileOutcome) : Prop
  | kept (target : r'.target = r.target) (failed : r.phase = .renaming → outcome = .fail)
  | removed (target : r'.target = none) (phase : r'.phase = .renaming)
  | renamed (target : r'.target = some r.bytes)

variable {r r' : Replacement} {outcome : FileOutcome}

theorem step_effect (h : r.Prepared) (hStep : r.step outcome = some r') :
    r'.bytes = r.bytes ∧ r'.Prepared ∧ Effect r r' outcome := by
  unfold Prepared at h ⊢
  simp only [step] at hStep
  split at hStep
  case h_2 n hPhase =>
    cases hStep
    refine ⟨rfl, fun hReady => ?_, .kept rfl (by simp [hPhase])⟩
    have hAll : r.bytes.length ≤ (r.temporary.getD []).length + n := by
      by_contra hMore
      simp [hMore] at hReady
    exact congrArg some (List.take_of_length_le hAll)
  case h_6 hPhase =>
    split_ifs at hStep
    cases hStep
    exact ⟨rfl, fun _ => h (by simp [hPhase]), .removed rfl rfl⟩
  case h_7 hPhase =>
    split_ifs at hStep
    cases hStep
    exact ⟨rfl, by simp, .renamed (h (by simp [hPhase]))⟩
  -- The other operations leave the target alone.
  all_goals
    try split_ifs at hStep
    all_goals cases hStep <;> exact ⟨rfl, by simp_all, .kept rfl (by simp_all)⟩

/-- The target has been removed and the rename is next. -/
def Removed (r : Replacement) : Prop := r.phase = .renaming ∧ r.target = none

/-- The target of a replacement of `old`, as far as it got. -/
structure Kept (old : List UInt8) (r : Replacement) : Prop where
  prepared : r.Prepared
  target : ¬r.Removed → r.target = some old ∨ r.target = some r.bytes

/-- The rename succeeds, if there is no target any more. -/
def Renames (r : Replacement) (outcome : FileOutcome) : Prop := r.Removed → outcome ≠ .fail

theorem Kept.step {old : List UInt8} (h : Kept old r) (hRenames : Renames r outcome)
    (hStep : r.step outcome = some r') : r'.bytes = r.bytes ∧ Kept old r' := by
  obtain ⟨hBytes, hPrepared, hEffect⟩ := step_effect h.prepared hStep
  refine ⟨hBytes, hPrepared, fun hNow => ?_⟩
  rw [hBytes]
  cases hEffect with
  | kept hTarget hFailed =>
    rw [hTarget]
    exact h.target fun hRemoved => hRenames hRemoved (hFailed hRemoved.1)
  | removed hTarget hRenaming => exact absurd ⟨hRenaming, hTarget⟩ hNow
  | renamed hTarget => exact .inr hTarget

/-- **A stopped replacement.** Whatever operations fail and wherever the process stops, the
target holds the complete old or the complete new content, unless it was removed and the process
stops before the rename or the rename fails. -/
theorem target_kept (old bytes : List UInt8) (temporary : Option (List UInt8))
    (outcomes : List FileOutcome)
    (hRenames : Guarded step Renames (start bytes (some old) temporary) outcomes)
    (hRun : exec step (start bytes (some old) temporary) outcomes = some r)
    (hNow : ¬r.Removed) : r.target = some old ∨ r.target = some bytes := by
  have hStart : Kept old (start bytes (some old) temporary) :=
    ⟨by simp [Prepared, start], fun _ => .inl rfl⟩
  have hRun := exec_induction_guarded
    (P := fun r => r.bytes = bytes ∧ Kept old r)
    (fun _ _ _ h hRenames hStep =>
      let ⟨hBytes, hKept⟩ := h.2.step hRenames hStep
      ⟨hBytes.trans h.1, hKept⟩) ⟨rfl, hStart⟩ hRenames hRun
  rw [← hRun.1]
  exact hRun.2.target hNow

/-- A replacement that runs to its end. -/
theorem target_kept_complete : ∃ r, exec step (start [2] (some [1]) none)
      [.succeed, .wrote 1, .succeed, .succeed, .succeed, .succeed] = some r ∧
      (r.target = some [1] ∨ r.target = some [2]) :=
  ⟨_, rfl, target_kept [1] [2] none
    [.succeed, .wrote 1, .succeed, .succeed, .succeed, .succeed]
    (by simp [Guarded, step, Renames, Removed, start]) rfl (by simp [Removed, start])⟩

/-- The process stops after the removal, or the rename fails: the target is missing, and in
the second case the new content as well. -/
theorem target_missing : (∃ r, exec step (start [2] (some [1]) none)
      [.succeed, .wrote 1, .succeed, .succeed, .succeed] = some r ∧ r.target = none) ∧
    ∃ r, exec step (start [2] (some [1]) none)
      [.succeed, .wrote 1, .succeed, .succeed, .succeed, .fail, .succeed] = some r ∧
      r.target = none ∧ r.temporary = none :=
  ⟨⟨_, rfl, rfl⟩, ⟨_, rfl, rfl, rfl⟩⟩

end Replacement

end TunnelProxy.Common
