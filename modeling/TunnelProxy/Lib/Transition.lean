import Mathlib.Data.List.Basic

/-!
# Partial step functions and their runs

A system is a state type `σ`, an action type `α` and a partial step function
`step : σ → α → Option σ`; an action that is not enabled steps to `none`. A
run is a list of actions, executed left to right by `exec`. Nothing here is
about a particular system.

Main results:

* `exec_append` — runs compose.
* `exec_induction` — a property kept by every step holds after every run.
* `exec_induction_guarded` — the same when each step may assume that its
  action met a guard in the state it was taken in.
* `exec_history` — the same for a property of the state and the actions so far.
* `exec_progress` — a measure that some action of a kind always lowers leads to a goal
  by actions of that kind alone.
-/

namespace Transition

open List

variable {σ α : Type*} {step : σ → α → Option σ} {as bs : List α} {s : σ} {P : σ → Prop}
  {G : σ → α → Prop}

/-- Executes the actions in order; `none` when one of them is not enabled. -/
def exec (step : σ → α → Option σ) : σ → List α → Option σ
  | s, [] => some s
  | s, a :: as => (step s a).bind (exec step · as)

@[simp] theorem exec_nil (s : σ) : exec step s [] = some s := rfl

theorem exec_cons_eq_some {s'' : σ} {a : α} : exec step s (a :: as) = some s'' ↔
      ∃ s', step s a = some s' ∧ exec step s' as = some s'' := by
  simp [exec, Option.bind_eq_some_iff]

/-- A run of `as ++ bs` is a run of `as` followed by a run of `bs`. -/
theorem exec_append {s'' : σ} : exec step s (as ++ bs) = some s'' ↔
      ∃ s', exec step s as = some s' ∧ exec step s' bs = some s'' := by
  induction as generalizing s with
  | nil => simp
  | cons _ _ ih =>
    rw [cons_append, exec_cons_eq_some]
    constructor
    · rintro ⟨s₁, hStep, hRest⟩
      obtain ⟨s', hAs, hBs⟩ := ih.mp hRest
      exact ⟨s', exec_cons_eq_some.mpr ⟨s₁, hStep, hAs⟩, hBs⟩
    · rintro ⟨s', hAs, hBs⟩
      obtain ⟨s₁, hStep, hAs⟩ := exec_cons_eq_some.mp hAs
      exact ⟨s₁, hStep, ih.mpr ⟨s', hAs, hBs⟩⟩

/-- Every action of the run is taken in a state that meets the guard `G`. -/
def Guarded (step : σ → α → Option σ) (G : σ → α → Prop) : σ → List α → Prop
  | _, [] => True
  | s, a :: as => G s a ∧
    match step s a with
    | some s' => Guarded step G s' as
    | none => True

instance decidableGuarded {G : σ → α → Prop} [∀ s a, Decidable (G s a)] :
    ∀ (s : σ) (as : List α), Decidable (Guarded step G s as)
  | _, [] => inferInstanceAs (Decidable True)
  | s, a :: as =>
    have : Decidable (match step s a with
        | some s' => Guarded step G s' as
        | none => True) := by
      cases step s a with
      | none => exact inferInstanceAs (Decidable True)
      | some s' => exact decidableGuarded s' as
    inferInstanceAs (Decidable (G s a ∧ _))

theorem Guarded.tail {s' : σ} {a : α} (h : Guarded step G s (a :: as))
    (hStep : step s a = some s') :
    Guarded step G s' as := by
  have hTail := h.2
  rwa [hStep] at hTail

theorem Guarded.init (h : Guarded step G s (as ++ bs)) : Guarded step G s as := by
  induction as generalizing s with
  | nil => trivial
  | cons a _ ih =>
    refine ⟨h.1, ?_⟩
    cases hStep : step s a with
    | none => trivial
    | some => exact ih (h.tail hStep)

theorem Guarded.rest {s' : σ} (h : Guarded step G s (as ++ bs)) (hRun : exec step s as = some s') :
    Guarded step G s' bs := by
  induction as generalizing s with
  | nil =>
    rw [exec_nil, Option.some.injEq] at hRun
    exact hRun ▸ h
  | cons _ _ ih =>
    obtain ⟨_, hA, hAs⟩ := exec_cons_eq_some.mp hRun
    exact ih (h.tail hA) hAs

theorem Guarded.and {H : σ → α → Prop} (hG : Guarded step G s as) (hH : Guarded step H s as) :
    Guarded step (fun s a => G s a ∧ H s a) s as := by
  induction as generalizing s with
  | nil => trivial
  | cons a _ ih =>
    refine ⟨⟨hG.1, hH.1⟩, ?_⟩
    cases hStep : step s a with
    | none => trivial
    | some => exact ih (hG.tail hStep) (hH.tail hStep)

theorem Guarded.mono {H : σ → α → Prop} (h : Guarded step G s as)
    (hImp : ∀ s a, G s a → H s a) : Guarded step H s as := by
  induction as generalizing s with
  | nil => trivial
  | cons a _ ih =>
    refine ⟨hImp s a h.1, ?_⟩
    cases hStep : step s a with
    | none => trivial
    | some => exact ih (h.tail hStep)

theorem Guarded.snoc {s' : σ} {a : α} (h : Guarded step G s as)
    (hRun : exec step s as = some s') (hLast : G s' a) : Guarded step G s (as ++ [a]) := by
  induction as generalizing s with
  | nil =>
    cases hRun
    exact ⟨hLast, by cases step s' a <;> trivial⟩
  | cons b _ ih =>
    obtain ⟨s₁, hB, hBs⟩ := exec_cons_eq_some.mp hRun
    refine ⟨h.1, ?_⟩
    rw [hB]
    exact ih (h.tail hB) hBs

/-- A guard on the actions alone is met by a run if every action meets it. -/
theorem guarded_of_forall {G : α → Prop} (h : ∀ a ∈ as, G a) :
    Guarded step (fun _ a => G a) s as := by
  induction as generalizing s with
  | nil => trivial
  | cons a _ ih =>
    refine ⟨h a mem_cons_self, ?_⟩
    cases step s a with
    | none => trivial
    | some => exact ih fun b hb => h b (mem_cons_of_mem a hb)

theorem guarded_true : Guarded step (fun _ _ => True) s as :=
  guarded_of_forall fun _ _ => trivial

/-- **Guarded invariant rule.** In a run whose actions all meet the guard, a
property kept by every guarded step holds at the end. -/
theorem exec_induction_guarded (hStep : ∀ s a s', P s → G s a → step s a = some s' → P s') :
    ∀ {as : List α} {s s' : σ}, P s → Guarded step G s as → exec step s as = some s' → P s' := by
  intro as
  induction as with
  | nil =>
    intro _ _ hP _ hRun
    rw [exec_nil, Option.some.injEq] at hRun
    exact hRun ▸ hP
  | cons a _ ih =>
    intro s _ hP hG hRun
    obtain ⟨s₁, hA, hAs⟩ := exec_cons_eq_some.mp hRun
    exact ih (hStep s a s₁ hP hG.1 hA) (hG.tail hA) hAs

/-- **Invariant rule.** A property that holds at the start and is kept by
every enabled step holds in every state a run reaches. -/
theorem exec_induction (hStep : ∀ s a s', P s → step s a = some s' → P s') :
    ∀ {as : List α} {s s' : σ}, P s → exec step s as = some s' → P s' := by
  intro _ _ _ hP hRun
  exact exec_induction_guarded (fun s a s' hP _ => hStep s a s' hP) hP guarded_true hRun

/-- **History rule.** The same for a property of a state and of the actions that led to it. -/
theorem exec_history {s₀ : σ} {R : List α → σ → Prop} (hStart : R [] s₀)
    (hStep : ∀ as s a s', exec step s₀ as = some s → R as s → step s a = some s' →
      R (as ++ [a]) s') (hRun : exec step s₀ as = some s) : R as s := by
  -- the actions taken so far are generalised, the induction is on those to come
  suffices hLater : ∀ bs cs s s', exec step s₀ bs = some s → R bs s →
      exec step s cs = some s' → R (bs ++ cs) s' from hLater [] as s₀ s rfl hStart hRun
  intro bs cs
  induction cs generalizing bs with
  | nil =>
    intro _ _ _ hR hEnd
    cases hEnd
    rwa [append_nil]
  | cons a _ ih =>
    intro s s' hBs hR hCs
    obtain ⟨s₁, hA, hCs⟩ := exec_cons_eq_some.mp hCs
    have hBs' : exec step s₀ (bs ++ [a]) = some s₁ :=
      exec_append.mpr ⟨s, hBs, exec_cons_eq_some.mpr ⟨s₁, hA, rfl⟩⟩
    rw [append_cons]
    exact ih (bs ++ [a]) s₁ s' hBs' (hStep bs s a s₁ hBs hR hA) hCs

/-- **Progress rule.** If in every state with `P` the goal `Q` is reached or an action of the
kind `own` lowers the measure and keeps `P`, then actions of that kind lead to the goal. -/
theorem exec_progress {Q : σ → Prop} {own : α → Prop} (μ : σ → Nat)
    (hStep : ∀ s, P s → Q s ∨ ∃ a s', own a ∧ step s a = some s' ∧ P s' ∧ μ s' < μ s) :
    ∀ {s : σ}, P s → ∃ as s', (∀ a ∈ as, own a) ∧ exec step s as = some s' ∧ Q s' := by
  intro s
  induction hn : μ s using Nat.strongRecOn generalizing s with
  | ind _ ih =>
    intro hP
    rcases hStep s hP with hQ | ⟨a, s₁, hOwn, hA, hP₁, hLess⟩
    · exact ⟨[], s, by simp, rfl, hQ⟩
    · obtain ⟨as, s', hAll, hRun, hQ⟩ := ih (μ s₁) (hn ▸ hLess) rfl hP₁
      refine ⟨a :: as, s', ?_, exec_cons_eq_some.mpr ⟨s₁, hA, hRun⟩, hQ⟩
      intro b hb
      rcases mem_cons.mp hb with rfl | hb
      · exact hOwn
      · exact hAll b hb

/-- Whether a run on fixed actions reaches a state with a property is decided by its evaluation. -/
instance decidableExists {o : Option σ} [DecidablePred P] : Decidable (∃ s, o = some s ∧ P s) :=
  decidable_of_iff (o.any P = true) (by simp [Option.any_eq_true])

end Transition
