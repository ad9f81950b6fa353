import TunnelProxy.Mux.Writer

/-!
# The writer makes progress

With no sender left the writer's work is bounded by `Pipeline.work`, and as long as a control
frame waits it comes closer to taking one (`Pipeline.advances`).
-/

namespace TunnelProxy.Mux

open Protocol Common BoundedFairQueue List

namespace Pipeline

/-- The turns of the writer for which the transport works. -/
def WriterAction.succeeds : WriterAction → Bool
  | .failed => false
  | _ => true

/-- How far the phase is from the next frame or the end. -/
def rank (p : Pipeline) : Nat :=
  match p.phase with
  | .writing _ _ => 8
  | .fill => 7
  | .control => 6
  | .data => 5
  | .select => if p.controlOpen then 2 else 4
  | .selectData => 3
  | .shutdown => 1
  | .done _ => 0

/-- What the writer has to do when nothing is added. A data frame is moved twice. -/
def work (p : Pipeline) : Nat :=
  10 * (p.control.length + p.scheduled.len + 2 * p.data.length) +
    (if p.controlOpen then 10 else 0) + (if p.dataOpen then 10 else 0) + p.rank

/-- A frame that is being written has bytes left, and the `select!` has a queue to wait
for. -/
structure Ready (p : Pipeline) : Prop where
  writing : ∀ rest isData, p.phase = .writing rest isData → rest ≠ []
  selects : p.phase = .select ∨ p.phase = .selectData → p.controlOpen = true ∨ p.dataOpen = true

theorem ready_new (controlCapacity dataCapacity : Nat) :
    (new controlCapacity dataCapacity).Ready := by
  constructor <;> simp [new]

variable {p : Pipeline}

theorem Ready.congr {p' : Pipeline} (h : p.Ready) (hPhase : p'.phase = p.phase)
    (hControl : p'.controlOpen = p.controlOpen) (hData : p'.dataOpen = p.dataOpen) :
    p'.Ready := by
  constructor
  · rw [hPhase]
    exact h.writing
  · rw [hPhase, hControl, hData]
    exact h.selects

theorem ready_loopTop (p : Pipeline) : p.loopTop.Ready := by
  rcases p.phase_loopTop with h | h <;> constructor <;> simp [h]

theorem ready_stop (p : Pipeline) (ok : Bool) : (p.stop ok).Ready := by
  constructor <;> simp [stop]

section

variable {p' : Pipeline} {controlGone dataGone : Bool} {a : WriterAction}

theorem Ready.turned (h : p.Ready) (hTurn : Turned p controlGone dataGone p') : p'.Ready := by
  cases hTurn with
  | takesControl o | takesData o =>
    refine ⟨?_, by simp⟩
    rintro _ _ ⟨⟩
    exact o.frame.wire_ne_nil
  | schedules _ _ _ _ _ _ _ hNext | closesControl _ _ _ _ hNext | closesData _ _ _ _ hNext =>
    rcases hNext with ⟨hPhase, rfl⟩ | ⟨-, rfl⟩
    · constructor <;> simp [hPhase]
    · exact ready_loopTop _
  | overflows => exact ready_stop p false
  | ends | filled | passes => constructor <;> simp
  | waits _ hOpen => exact ⟨by simp, fun _ => hOpen⟩
  | waitsData _ hPhase => exact ⟨by simp, fun _ => h.selects (.inl hPhase)⟩
  | waitsAgain _ hPhase => exact ⟨by simp, fun _ => h.selects (.inr hPhase)⟩

theorem Ready.stepWith (h : p.Ready) (hStep : p.stepWith controlGone dataGone a = some p') :
    p'.Ready := by
  cases a with
  | turn => exact h.turned (turnWith_turned hStep).1
  | wrote n =>
    simp only [Pipeline.stepWith, wrote] at hStep
    split at hStep
    · rename_i hPhase
      split_ifs at hStep with hN hAll <;> cases hStep
      · exact ready_loopTop _
      · refine ⟨?_, by simp⟩
        rintro _ _ ⟨⟩
        rw [Ne, drop_eq_nil_iff]
        omega
    · cases hStep
  | failed | finished =>
    simp only [Pipeline.stepWith, failed, finished] at hStep
    split at hStep <;> cases hStep
    all_goals exact ready_stop _ _

theorem Ready.step {disconnected : Bool} (h : p.Ready)
    (hStep : p.step disconnected a = some p') : p'.Ready :=
  h.stepWith ((stepWith_same ..).trans hStep)

end

theorem work_stop (ok : Bool) (hAlive : p.alive) : (p.stop ok).work < p.work := by
  have hRank : 0 < p.rank := by
    unfold rank
    unfold alive at hAlive
    split <;> simp_all
    split <;> omega
  have hStop : (p.stop ok).work =
      (if p.controlOpen then 10 else 0) + (if p.dataOpen then 10 else 0) := by
    have hEmpty : (p.stop ok).scheduled.len = 0 := rfl
    rw [work, hEmpty]
    simp [stop, rank]
    rfl
  rw [hStop]
  unfold work
  omega

theorem work_loopTop (p : Pipeline) :
    p.loopTop.work ≤ 10 * (p.control.length + p.scheduled.len + 2 * p.data.length) +
      (if p.controlOpen then 10 else 0) + (if p.dataOpen then 10 else 0) + 7 := by
  unfold loopTop work
  split <;> simp [rank]

variable {disconnected controlGone : Bool}

/-- The `select!` that finds no control frame goes on to the data queue. -/
def patience (p : Pipeline) (controlGone : Bool) : Nat :=
  if p.phase = .select ∧ p.controlOpen = true ∧ p.control = [] ∧ controlGone = false then 2 else 0

/-- The frames and queues the writer still has to deal with. -/
def load (p : Pipeline) : Nat :=
  10 * (p.control.length + p.scheduled.len + 2 * p.data.length) +
    (if p.controlOpen then 10 else 0) + (if p.dataOpen then 10 else 0)

theorem work_eq_load (p : Pipeline) : p.work = p.load + p.rank := rfl

theorem select_cost (hPhase : p.phase = .select) : p.rank + p.patience controlGone ≤ 4 := by
  unfold rank patience
  rw [hPhase]
  dsimp only
  by_cases hOpen : p.controlOpen = true
  · rw [if_pos hOpen]
    split <;> omega
  · rw [if_neg hOpen, if_neg fun hAll => hOpen hAll.2.1]

/-- With a control frame to take, or the queue to close, the `select!` is about to do so. -/
theorem select_ready (hPhase : p.phase = .select) (hOpen : p.controlOpen = true)
    (hSees : p.control ≠ [] ∨ controlGone = true) : p.rank + p.patience controlGone = 2 := by
  have hNone : p.patience controlGone = 0 := by
    apply if_neg
    rintro ⟨-, -, hControl, hGone⟩
    rcases hSees with hSees | hSees
    · exact hSees hControl
    · rw [hSees] at hGone
      cases hGone
  rw [hNone, rank, hPhase]
  exact if_pos hOpen

theorem patience_of_phase (h : p.phase ≠ .select) : p.patience controlGone = 0 :=
  if_neg fun hAll => h hAll.1

theorem phase_loopTop_ne (p : Pipeline) : p.loopTop.phase ≠ .select := by
  rcases phase_loopTop p with h | h <;> simp [h]

/-- A turn leaves the writer less to do, unless it goes back to the head of the `select!` where
neither a control frame nor the end of its queue is to be seen. -/
theorem Turned.advances {dataGone : Bool} {p' : Pipeline} (h : Turned p controlGone dataGone p')
    (hBetween : p.between)
    (hBack : p.phase = .selectData → (p.dataOpen = true → p.data = [] ∧ dataGone = false) →
      p.controlOpen = true ∧ (p.control ≠ [] ∨ controlGone = true)) :
    p'.work + p'.patience controlGone < p.work + p.patience controlGone := by
  cases h with
  | takesControl _ _ hControl =>
    rw [patience_of_phase (by simp)]
    simp only [work, rank, hControl, length_cons]
    omega
  | takesData _ _ hPop =>
    have hLen := len_pop hPop
    rw [patience_of_phase (by simp)]
    simp only [work, rank]
    omega
  | schedules _ _ _ hData _ hPush _ hNext =>
    have hLen := len_push hPush
    rcases hNext with ⟨hPhase, rfl⟩ | ⟨-, rfl⟩
    · rw [patience_of_phase (by simp [hPhase])]
      simp only [work, rank, hPhase, hData, length_cons]
      omega
    · rw [patience_of_phase (phase_loopTop_ne _)]
      refine Nat.lt_of_le_of_lt (work_loopTop _) ?_
      simp only [work, hData, length_cons]
      omega
  | overflows =>
    rw [patience_of_phase (by simp [stop])]
    exact Nat.lt_add_right _ (work_stop false (alive_of_between hBetween))
  | closesControl _ hOpen _ _ hNext =>
    rcases hNext with ⟨hPhase, rfl⟩ | ⟨-, rfl⟩
    · rw [patience_of_phase (by simp)]
      simp only [work, rank, hPhase, hOpen, if_true, Bool.false_eq_true, if_false]
      omega
    · rw [patience_of_phase (phase_loopTop_ne _)]
      refine Nat.lt_of_le_of_lt (work_loopTop _) ?_
      simp only [work, hOpen, if_true, Bool.false_eq_true, if_false]
      omega
  | closesData _ hOpen _ _ hNext =>
    rcases hNext with ⟨hPhase, rfl⟩ | ⟨-, rfl⟩
    · rw [patience_of_phase (by simp [hPhase])]
      simp only [work, rank, hPhase, hOpen, if_true, Bool.false_eq_true, if_false]
      omega
    · rw [patience_of_phase (phase_loopTop_ne _)]
      refine Nat.lt_of_le_of_lt (work_loopTop _) ?_
      simp only [work, hOpen, if_true, Bool.false_eq_true, if_false]
      omega
  | ends _ _ _ hPhase | filled hPhase | passes hPhase =>
    rw [patience_of_phase (by simp)]
    simp only [work, rank, hPhase]
    omega
  | waits _ _ hPhase =>
    have hCost : ({ p with phase := .select } : Pipeline).rank +
        ({ p with phase := .select } : Pipeline).patience controlGone ≤ 4 := select_cost rfl
    have hRank : p.rank = 5 := by simp [rank, hPhase]
    rw [work_eq_load, work_eq_load, hRank]
    show p.load + _ + _ < p.load + 5 + _
    omega
  | waitsData hEmpty hPhase =>
    have hCost : p.rank + p.patience controlGone = 4 := by
      by_cases hOpen : p.controlOpen = true
      · simp [rank, patience, hPhase, hOpen, hEmpty hOpen]
      · simp [rank, patience, hPhase, hOpen]
    rw [patience_of_phase (by simp), work_eq_load, work_eq_load]
    show p.load + 3 + 0 < p.load + _ + _
    omega
  | waitsAgain hEmpty hPhase =>
    -- back at the selection the writer finds control work, which outweighs the way back
    obtain ⟨hOpen, hSees⟩ := hBack hPhase hEmpty
    have hCost := select_ready (p := { p with phase := .select }) rfl hOpen hSees
    have hRank : p.rank = 3 := by simp [rank, hPhase]
    rw [work_eq_load, work_eq_load, hRank]
    show p.load + _ + _ < p.load + 3 + _
    omega

theorem work_wrote {rest : List UInt8} {isData : Bool} (hPhase : p.phase = .writing rest isData)
    (hRest : rest ≠ []) :
    ∃ p', p.step disconnected (.wrote rest.length) = some p' ∧ p'.work < p.work := by
  have hLen : 0 < rest.length := length_pos_iff.mpr hRest
  refine ⟨written { p with
    outgoing := p.outgoing ++ rest.take rest.length
    bytesOut := p.bytesOut ++ rest.take rest.length } isData, ?_, ?_⟩
  · show p.wrote rest.length = _
    unfold wrote
    split
    · rename_i hPhase'
      obtain ⟨rfl, rfl⟩ := WriterPhase.writing.inj (hPhase.symm.trans hPhase')
      rw [if_pos ⟨hLen, Nat.le_refl _⟩]
      exact congrArg some (if_pos rfl)
    · rename_i hNot
      exact absurd hPhase (hNot rest isData)
  · refine Nat.lt_of_le_of_lt (work_loopTop _) ?_
    simp [work, rank, hPhase]

/-- **The writer goes on.** With no sender left, or while a control frame waits, it has a
turn that leaves it less to do. -/
theorem advances (hReady : p.Ready) (hAlive : p.alive)
    (hGo : disconnected = true ∨ p.control ≠ [] ∧ p.controlOpen = true) :
    ∃ a p', WriterAction.succeeds a = true ∧ p.step disconnected a = some p' ∧
      p'.work < p.work := by
  have hNone : p.patience disconnected = 0 := by
    apply if_neg
    rintro ⟨-, -, hControl, hGone⟩
    rcases hGo with hGo | ⟨hWaits, -⟩
    · cases hGo.symm.trans hGone
    · exact hWaits hControl
  have hTurn : ∀ p', p.turnWith disconnected disconnected = some p' → p'.work < p.work := by
    intro p' h
    obtain ⟨hTurned, hBetween⟩ := turnWith_turned h
    have hLess := hTurned.advances hBetween fun hPhase hWaits => by
      rcases hGo with hGone | ⟨hControl, hOpen⟩
      · refine ⟨(hReady.selects (.inr hPhase)).resolve_right fun hOpen => ?_, .inr hGone⟩
        cases hGone.symm.trans (hWaits hOpen).2
      · exact ⟨hOpen, .inl hControl⟩
    omega
  cases hPhase : p.phase with
  | fill | control | data | select | selectData =>
    exact ⟨.turn, _, rfl, by rw [step, turn, hPhase], hTurn _ (by rw [turnWith, hPhase])⟩
  | writing rest isData =>
    -- the transport takes the rest of the frame at once
    obtain ⟨p', hStep, hLess⟩ := work_wrote hPhase (hReady.writing rest isData hPhase)
    exact ⟨.wrote rest.length, p', rfl, hStep, hLess⟩
  | shutdown =>
    exact ⟨.finished, _, rfl, by rw [step, finished, hPhase], work_stop true hAlive⟩
  | done => simp [alive, hPhase] at hAlive

end Pipeline

end TunnelProxy.Mux
