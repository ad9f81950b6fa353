import TunnelProxy.Mux.Unwinding

/-!
# A session whose dispatch loop has ended

After its loop `run_edge_session` drops its senders and awaits the writer, which ends when the
stream tasks have dropped theirs; `run_multiplexed_inner` joins the stream tasks first. In both
the receiver of the `Closed` events is still there, and nobody takes from it.

So a session does not return while a task is stuck in `write_all` on a socket that nobody reads,
or waits for room among the events (`teardown_stuck`). It does return, by steps that need
neither a public client nor a local service, if no task may still write to its socket and every
running task has a place for its event when the loop ends (`Core.calm`), or if the tasks are
cancelled (`teardown_unaided`).
-/

namespace TunnelProxy.Mux

open Protocol Common Std Transition Mux.Core List Option StreamTask Dispatch

/-! ## Steps that need no third party -/

/-- The events of a stream task that no public client and no local service has a part in.
A failed connection is an answer of the local service; the timeouts are the task's own. -/
def TaskEvent.unaided : TaskEvent → Bool
  | .connected | .connectFailed | .read _ | .readEof | .readErr | .wrote _ | .writeErr => false
  | _ => true

def Core.CoreAction.unaided : Core.CoreAction → Bool
  | .task _ e => e.unaided
  | _ => true

def EdgeAction.unaided : EdgeAction → Bool
  | .core a => a.unaided
  | _ => true

def AgentAction.unaided : AgentAction → Bool
  | .core a => a.unaided
  | _ => true

/-- The loop has ended and the function has not returned. -/
def Dispatch.ended : Dispatch → Bool
  | .joining | .awaitWriter => true
  | _ => false

namespace Dispatch

variable {d : Dispatch}

theorem not_looping_of_ended (h : d.ended = true) : d.looping = false := by
  cases d <;> first | rfl | cases h

theorem not_ended_of_returned (h : d.isReturned = true) : d.ended = false := by
  cases d <;> first | rfl | cases h

end Dispatch

namespace StreamTask

variable {t t' : StreamTask} {e : TaskEvent}

/-- The task writes to its socket, or holds a frame that may make it do so. -/
def mayWrite (t : StreamTask) : Bool :=
  match t.phase with
  | .writing _ => true
  | .sendReset _ | .closing | .ended => false
  | _ => t.inbound.any (·.frameType = .data)

/-- The task is past its relay loop. -/
def leaving (t : StreamTask) : Bool :=
  match t.phase with
  | .sendReset _ | .closing | .ended => true
  | _ => false

theorem mayWrite_of_quiet (hPhase : ∀ rest, t.phase ≠ .writing rest)
    (hQuiet : t.inbound.any (·.frameType = .data) = false) : t.mayWrite = false := by
  unfold mayWrite
  split
  · rename_i rest hWriting
    exact absurd hWriting (hPhase rest)
  · rfl
  · rfl
  · rfl
  · exact hQuiet

theorem not_writing_of_mayWrite (h : t.mayWrite = false) (rest : List UInt8) :
    t.phase ≠ .writing rest := by
  intro hPhase
  simp [mayWrite, hPhase] at h

theorem mayWrite_loopTop (hQuiet : t.inbound.any (·.frameType = .data) = false) :
    t.loopTop.mayWrite = false := by
  unfold loopTop
  split
  · rfl
  · exact mayWrite_of_quiet (by simp) hQuiet

/-- A frame that is not DATA sends nothing to the socket. -/
theorem mayWrite_onFrame {frame : Frame} (h : t.onFrame frame = some t')
    (hType : frame.frameType ≠ .data)
    (hQuiet : t.inbound.any (·.frameType = .data) = false) : t'.mayWrite = false := by
  cases (onFrame_effect h).2 with
  | opened | ended => exact mayWrite_of_quiet (by simp) hQuiet
  | closed | reset => rfl
  | empty _ hData | writes _ hData => exact absurd hData hType

/-- **A task that cannot write to its socket stays so**, as long as it is given no frames. -/
theorem mayWrite_step (h : t.step e = some t') (hNo : t.mayWrite = false) :
    t'.mayWrite = false := by
  have hQuiet : t.leaving = false → t.inbound.any (·.frameType = .data) = false := by
    intro hStays
    unfold mayWrite at hNo
    unfold leaving at hStays
    cases hPhase : t.phase <;> simp only [hPhase, reduceCtorEq] at hNo hStays
    all_goals exact hNo
  cases step_move h with
  | read _ _ hPhase | readEof hPhase | connected hPhase =>
    exact mayWrite_of_quiet (by simp) (hQuiet (by simp [leaving, hPhase]))
  | opened _ hPhase =>
    rcases hPhase with ⟨hPhase, rfl⟩ | ⟨hPhase, rfl⟩
    all_goals exact mayWrite_of_quiet (by simp) (hQuiet (by simp [leaving, hPhase]))
  | sentData _ hPhase | shutdownOk hPhase =>
    exact mayWrite_loopTop (hQuiet (by simp [leaving, hPhase]))
  | recv _ _ _ hInbound hFrame =>
    have hStays : t.leaving = false := by
      rcases (onFrame_effect hFrame).1 with hPhase | hPhase | hPhase <;>
        simp [leaving, show t.phase = _ from hPhase]
    have hAll := hQuiet hStays
    rw [hInbound, any_cons, Bool.or_eq_false_iff, decide_eq_false_iff_not] at hAll
    exact mayWrite_onFrame hFrame hAll.1 hAll.2
  | written _ rest hPhase | writing _ rest hPhase =>
    exact absurd hPhase (not_writing_of_mayWrite hNo rest)
  | finish | drop | close | reset => rfl

end StreamTask

/-! ## The core after the loop -/

namespace Core

variable {c c' : Core} {i : Nat} {a : CoreAction}

/-- No running task may write to its socket any more, and each has a place for its event. -/
def calm (c : Core) : Bool :=
  c.tasks.all (!·.mayWrite) && c.events.length + c.runningTasks ≤ c.limits.maxStreams

/-- The step from `c` to `c'` ends the loop and lets the tasks run. -/
def leavesLoop (c c' : Core) : Bool :=
  c.dispatch.looping && c'.dispatch.ended && !c'.aborting

/-- A loop that ended when the session was calm, or that cancelled its tasks. -/
structure Unwinds (c : Core) : Prop where
  streams : c.streams = ∅
  calm : c.aborting = true ∨ c.calm = true

theorem calm_iff : c.calm = true ↔ (∀ t ∈ c.tasks, t.mayWrite = false) ∧
    c.events.length + c.runningTasks ≤ c.limits.maxStreams := by
  simp [calm]

/-- A task that hands over its event makes place for it. -/
theorem runningTasks_drop {t : StreamTask} (hTask : c.tasks[i]? = some t) (hRuns : t.running) :
    (c.setTask i t.drop).runningTasks + 1 = c.runningTasks := by
  obtain ⟨hLt, hGet⟩ := List.getElem?_eq_some_iff.mp hTask
  have hPos : 0 < c.tasks.countP running :=
    countP_pos_iff.mpr ⟨t, mem_of_getElem? hTask, hRuns⟩
  unfold runningTasks setTask
  rw [countP_set hLt, hGet, if_pos hRuns, if_neg (by simp [StreamTask.drop, running])]
  omega

theorem runningTasks_set_le {t : StreamTask} (t' : StreamTask) (hTask : c.tasks[i]? = some t)
    (hRuns : t.running) : (c.setTask i t').runningTasks ≤ c.runningTasks :=
  IndexMap.countP_set_le hTask fun _ => hRuns

theorem mayWrite_set {t' : StreamTask} (hAll : ∀ t ∈ c.tasks, t.mayWrite = false)
    (hNext : t'.mayWrite = false) : ∀ u ∈ c.tasks.set i t', u.mayWrite = false := by
  intro u hu
  rcases mem_or_eq_of_mem_set hu with hu | rfl
  · exact hAll u hu
  · exact hNext

/-- **What runs after the loop keeps the session calm.** -/
theorem calm_core (hCalm : c.calm = true) (hStep : c.step a = some c') : c'.calm = true := by
  obtain ⟨hAll, hPlaces⟩ := calm_iff.mp hCalm
  rw [calm_iff]
  cases step_effect hStep with
  | task i t t' _ hTask hEvent | control i t t' frame pipe hTask hEvent
  | data i t t' frame pipe hTask hEvent =>
    have hNo := hAll t (mem_of_getElem? hTask)
    have hLe := runningTasks_set_le t' hTask (running_of_step hEvent)
    refine ⟨mayWrite_set hAll (mayWrite_step hEvent hNo), ?_⟩
    show c.events.length + (c.setTask i t').runningTasks ≤ c.limits.maxStreams
    omega
  | closed i t t' hTask hEvent hSend =>
    have hNo := hAll t (mem_of_getElem? hTask)
    have hDrop := runningTasks_drop hTask (running_of_step hEvent)
    have hNext : t' = t.drop := by
      cases hPhase : t.phase <;> simp [pendingSend, hPhase] at hSend
      simpa [StreamTask.step, onSent, hPhase] using hEvent.symm
    subst hNext
    refine ⟨mayWrite_set hAll (mayWrite_step hEvent hNo), ?_⟩
    show (c.events ++ [t.id]).length + (c.setTask i t.drop).runningTasks ≤ c.limits.maxStreams
    rw [length_append, length_singleton]
    omega
  | abort i t hTask hRuns =>
    have hDrop := runningTasks_drop hTask hRuns
    refine ⟨mayWrite_set hAll rfl, ?_⟩
    show c.events.length + (c.setTask i t.drop).runningTasks ≤ c.limits.maxStreams
    omega
  | writer | arrive | arriveEof | depart => exact ⟨hAll, hPlaces⟩

theorem Unwinds.core (h : c.Unwinds) (hStep : c.step a = some c') : c'.Unwinds where
  streams := (step_effect hStep).outside.streams.trans h.streams
  calm := by
    rw [show c'.aborting = c.aborting by cases step_effect hStep <;> rfl]
    exact h.calm.imp_right fun hCalm => calm_core hCalm hStep

theorem unwinds_of_leaves {turn : Turn} {next next' : UInt32}
    (h : SessionEffect c turn next next' c') (hLoop : c.dispatch.looping)
    (hEnded : c'.dispatch.ended) (hGuard : leavesLoop c c' = true → c.calm = true) :
    c'.Unwinds := by
  obtain ⟨hStreams, hTasks, hLimits, _, -⟩ :=
    h.leaves hLoop (not_looping_of_ended hEnded)
  refine ⟨hStreams, ?_⟩
  cases hAborting : c'.aborting with
  | true => exact .inl rfl
  | false =>
    right
    obtain ⟨hAll, hPlaces⟩ := calm_iff.mp (hGuard (by simp [leavesLoop, hLoop, hEnded, hAborting]))
    rw [calm_iff, hTasks, hLimits]
    refine ⟨hAll, ?_⟩
    unfold runningTasks at hPlaces ⊢
    rw [hTasks]
    omega

/-- **Unwinding goes on** until the tasks can be joined or the writer has ended. -/
theorem Unwinds.advances (h : c.Unwinds) (hOk : c.PipeOk) (hEnded : c.dispatch.ended) :
    (∃ a c', a.unaided = true ∧ c.step a = some c' ∧ c'.effort < c.effort) ∨
      (∀ t ∈ c.tasks, t.running = false) ∧
        (c.dispatch = .joining ∨ c.dispatch = .awaitWriter ∧ c.pipe.alive = false) := by
  have hWriter : c.writes → ∃ a c', a.unaided = true ∧ c.step a = some c' ∧
      c'.effort < c.effort := by
    intro hWrites
    obtain ⟨a, c', -, hStep, hLess⟩ := hOk.writer_advances hWrites
    exact ⟨.writer a, c', rfl, hStep, hLess⟩
  by_cases hRunning : ∃ t ∈ c.tasks, t.running = true
  · refine .inl ?_
    obtain ⟨t, hMem, hRuns⟩ := hRunning
    obtain ⟨i, hTask⟩ := getElem?_of_mem hMem
    rcases h.calm with hAborting | hCalm
    · -- the task is cancelled
      have hRank : t.drop.rank < t.rank := by
        rw [rank_drop]
        unfold rank
        cases hPhase : t.phase <;> simp [running, hPhase] at hRuns ⊢
      exact ⟨.abort i, c.setTask i t.drop, rfl, by simp [step, abortTask, hTask, hAborting, hRuns],
        effort_setTask hTask hRuns hRank⟩
    · obtain ⟨hAll, _⟩ := calm_iff.mp hCalm
      have hPos : 0 < c.runningTasks := countP_pos_iff.mpr ⟨t, hMem, hRuns⟩
      have hNo := not_writing_of_mayWrite (hAll t hMem)
      rcases task_advances hOk h.streams hTask hRuns (fun rest hPhase => absurd hPhase (hNo rest))
          (fun _ => .inr (by omega)) with ⟨e, c', hProceeds, hStep, hLess⟩ | hWrites
      · refine ⟨.task i e, c', ?_, hStep, hLess⟩
        cases e with
        | wrote _ =>
          -- only a task that writes takes this event
          cases hPhase : t.phase with
          | writing rest => exact absurd hPhase (hNo rest)
          | _ => simp [step, taskStep, hTask, StreamTask.step, onWrote, hPhase] at hStep
        | _ => first | rfl | cases hProceeds
      · exact hWriter hWrites
  · have hNone : ∀ t ∈ c.tasks, t.running = false := by
      intro t hMem
      by_contra hRuns
      exact hRunning ⟨t, hMem, by simpa using hRuns⟩
    cases hDispatch : c.dispatch with
    | joining => exact .inr ⟨hNone, .inl rfl⟩
    | awaitWriter =>
      by_cases hAlive : c.pipe.alive = true
      · -- no sender is left: the writer does not wait for one
        have hGone : c.disconnected = true := by
          simpa [disconnected, hDispatch, holdsSenders] using hNone
        refine .inl (hWriter ⟨hAlive, ?_⟩)
        rintro ⟨-, -, -, hLeft⟩
        rw [hGone] at hLeft
        simp at hLeft
      · exact .inr ⟨hNone, .inr ⟨rfl, by simpa using hAlive⟩⟩
    | select | sending | returned => simp [hDispatch, Dispatch.ended] at hEnded

/-- How many steps of the function itself are left. -/
def stage (c : Core) : Nat :=
  match c.dispatch with
  | .joining => 2
  | .awaitWriter => 1
  | _ => 0

theorem stage_of_returned (h : c.dispatch.isReturned = true) : c.stage = 0 := by
  cases hDispatch : c.dispatch <;> simp [hDispatch, isReturned] at h
  simp [stage, hDispatch]

/-- A step of the function itself does not make more work: its own senders only go. -/
theorem effort_le (hTasks : c'.tasks = c.tasks) (hPipe : c'.pipe = c.pipe)
    (hHolds : c'.dispatch.holdsSenders → c.dispatch.holdsSenders) : c'.effort ≤ c.effort := by
  have hPatience : c.pipe.patience c'.disconnected ≤ c.pipe.patience c.disconnected := by
    cases hGone : c.disconnected with
    | false => exact Pipeline.patience_le rfl rfl (fun h => h) _
    | true =>
      obtain ⟨hLeft, hEnded⟩ := disconnected_iff.mp hGone
      have hStill : c'.disconnected = true := by
        refine disconnected_iff.mpr ⟨?_, hTasks ▸ hEnded⟩
        by_contra hHeld
        rw [hHolds (by simpa using hHeld)] at hLeft
        cases hLeft
      rw [hStill]
  unfold effort
  rw [hTasks, hPipe]
  omega

/-- The writer has ended, so that awaiting it returns. -/
theorem returnWith_of_done (hDone : c.pipe.alive = false) (reason : SessionCloseReason) :
    ∃ c', c.returnWith reason = some c' ∧ c'.dispatch.isReturned = true := by
  cases hPhase : c.pipe.phase with
  | done =>
    simp only [returnWith, writerDone, hPhase]
    exact ⟨_, rfl, rfl⟩
  | _ => simp [Pipeline.alive, hPhase] at hDone

theorem done_of_returnWith {reason : SessionCloseReason} (h : c.returnWith reason = some c') :
    c.pipe.alive = false ∧ c'.dispatch.isReturned = true := by
  obtain ⟨_, hDone, rfl⟩ := map_eq_some_iff.mp h
  refine ⟨?_, rfl⟩
  cases hPhase : c.pipe.phase <;> simp [writerDone, hPhase] at hDone
  simp [Pipeline.alive, hPhase]

/-- After the loop none of its branches is taken. -/
theorem branches_of_left (hLeft : c.dispatch.looping = false) :
    c.dispatch ≠ .select ∧ (∀ n, c.read n = none) ∧ c.readEof = none ∧ c.closedEvent = none ∧
      c.sent = none ∧ c.sendFailed = none := by
  cases hDispatch : c.dispatch <;>
    simp [read, readEof, closedEvent, sent, sendFailed, hDispatch, looping] at hLeft ⊢

/-- Outside the loop a step of the core, or none, keeps what the teardown needs. -/
theorem unwinds_of_left (hInv : c.dispatch.ended = true → c.Unwinds)
    (hEnded : c'.dispatch.ended = true)
    (h : (∃ a, c.step a = some c') ∨ c' = c ∨ c'.dispatch.isReturned = true) : c'.Unwinds := by
  rcases h with ⟨_, hStep⟩ | rfl | hReturned
  · exact (hInv ((step_effect hStep).outside.dispatch ▸ hEnded)).core hStep
  · exact hInv hEnded
  · rw [not_ended_of_returned hReturned] at hEnded
    cases hEnded

section Session

variable {σ α : Type} {step : σ → α → Option σ}

theorem calm_of_guard {core : σ → Core} {s s' : σ} {a : α}
    (hGuard : (step s a).all (fun s' => !leavesLoop (core s) (core s') || (core s).calm) = true)
    (h : step s a = some s') (hLeaves : leavesLoop (core s) (core s') = true) :
    (core s).calm = true := by
  rw [h] at hGuard
  simpa [hLeaves] using hGuard

theorem guard_of_left {core : σ → Core} (hEnded : c.dispatch.ended = true)
    (next : Option σ) : next.all (fun s' => !leavesLoop c (core s') || c.calm) = true := by
  cases next <;> simp [leavesLoop, not_looping_of_ended hEnded]

/-- **Run lemma, for either side.** A session that offers the steps of its core, the join and
the return gets from the end of its loop to its return by unaided steps. -/
theorem returns_of_unwinds (core : σ → Core) (own : α → Prop) (Inv : σ → Prop)
    (hPipe : ∀ s, Inv s → (core s).PipeOk)
    (hUnwinds : ∀ s, Inv s → (core s).dispatch.ended = true → (core s).Unwinds)
    (hKeep : ∀ s a s', Inv s → (core s).dispatch.ended = true → step s a = some s' → Inv s')
    (hCore : ∀ s a c', a.unaided = true → (core s).step a = some c' →
      ∃ b s', own b ∧ step s b = some s' ∧ core s' = c')
    (hJoined : ∀ s, Inv s → (core s).dispatch = .joining →
      (∀ t ∈ (core s).tasks, t.running = false) →
      ∃ b s', own b ∧ step s b = some s' ∧ core s' = { core s with dispatch := .awaitWriter })
    (hReturn : ∀ s, Inv s → (core s).dispatch = .awaitWriter → (core s).pipe.alive = false →
      ∃ b s' reason, own b ∧ step s b = some s' ∧ (core s).returnWith reason = some (core s'))
    {s : σ} (hInv : Inv s) (hEnded : (core s).dispatch.ended = true) :
    ∃ actions s', (∀ a ∈ actions, own a) ∧ exec step s actions = some s' ∧
      (core s').dispatch.isReturned = true := by
  let Left (s : σ) : Prop :=
    Inv s ∧ ((core s).dispatch.ended = true ∨ (core s).dispatch.isReturned = true)
  have hAdvance : ∀ t, Left t → (core t).dispatch.isReturned = true ∨
      ∃ a t', own a ∧ step t a = some t' ∧ Left t' ∧
        (core t').effort + (core t').stage < (core t).effort + (core t).stage := by
    rintro t ⟨hInv, hNow | hReturned⟩
    · right
      rcases (hUnwinds t hInv hNow).advances (hPipe t hInv) hNow with
        ⟨a, c', hUnaided, hStep, hLess⟩ | ⟨hNone, hJoin | ⟨hAwait, hDone⟩⟩
      · -- a task or the writer goes on
        obtain ⟨b, t', hOwn, hTake, rfl⟩ := hCore t a c' hUnaided hStep
        have hDispatch := (step_effect hStep).outside.dispatch
        refine ⟨b, t', hOwn, hTake, ⟨hKeep t b t' hInv hNow hTake, .inl (hDispatch ▸ hNow)⟩, ?_⟩
        unfold stage
        rw [hDispatch]
        omega
      · -- all tasks have ended, and the function drops its own senders
        obtain ⟨b, t', hOwn, hTake, hNext⟩ := hJoined t hInv hJoin hNone
        have hLe : (core t').effort ≤ (core t).effort := by
          rw [hNext]
          exact effort_le rfl rfl (by simp [holdsSenders])
        have hStage : (core t').stage = 1 := by rw [hNext]; rfl
        have hBefore : (core t).stage = 2 := by simp [stage, hJoin]
        exact ⟨b, t', hOwn, hTake, ⟨hKeep t b t' hInv hNow hTake, .inl (by rw [hNext]; rfl)⟩,
          by omega⟩
      · obtain ⟨b, t', _, hOwn, hTake, hNext⟩ := hReturn t hInv hAwait hDone
        obtain ⟨_, -, hEq⟩ := map_eq_some_iff.mp hNext
        have hLe : (core t').effort ≤ (core t).effort := by
          rw [← hEq]
          exact effort_le rfl rfl (by simp [holdsSenders])
        have hReturned : (core t').dispatch.isReturned = true := by
          rw [← hEq]
          rfl
        have hStage := stage_of_returned hReturned
        have hBefore : (core t).stage = 1 := by simp [stage, hAwait]
        exact ⟨b, t', hOwn, hTake, ⟨hKeep t b t' hInv hNow hTake, .inr hReturned⟩, by omega⟩
    · exact .inl hReturned
  exact exec_progress _ hAdvance ⟨hInv, .inl hEnded⟩

end Session

end Core

/-! ## Edge sessions -/

namespace EdgeSession

variable {s s' : EdgeSession} {a : EdgeAction}

/-- A step that ends the loop without cancelling the tasks finds the session calm. -/
def endsCalm (s : EdgeSession) (a : EdgeAction) : Prop :=
  (s.step a).all (fun s' => !leavesLoop s.core s'.core || s.core.calm) = true

instance (s : EdgeSession) (a : EdgeAction) : Decidable (s.endsCalm a) :=
  inferInstanceAs (Decidable (_ = true))

/-- After the loop the function only awaits the writer. -/
theorem step_left (hLeft : s.core.dispatch.looping = false) (h : s.step a = some s') :
    (∃ b, a = .core b ∧ s.core.step b = some s'.core) ∨ s'.core = s.core ∨
      s.core.dispatch = .awaitWriter ∧ s.core.pipe.alive = false ∧
        s'.core.dispatch.isReturned = true := by
  obtain ⟨hSelect, hRead, hEof, hEvent, hSent, hFailed⟩ := branches_of_left hLeft
  cases a with
  | core b =>
    obtain ⟨_, hStep, rfl⟩ := map_eq_some_iff.mp h
    exact .inl ⟨b, rfl, hStep⟩
  | enqueue =>
    simp only [step] at h
    split_ifs at h
    cases h
    exact .inr (.inl rfl)
  | dropCommands =>
    cases h
    exact .inr (.inl rfl)
  | decode => simp [step, decode, hRead] at h
  | decodeEof => simp [step, decodeEof, hEof] at h
  | decodeErr => simp [step, decodeErr, hSelect] at h
  | command => simp [step, command, hSelect] at h
  | event => simp [step, hEvent] at h
  | heartbeat => simp [step, heartbeat, hSelect] at h
  | writerResult => simp [step, hSelect] at h
  | sent => simp [step, sent, hSent] at h
  | sendFailed => simp [step, hFailed] at h
  | writerJoined =>
    simp only [step] at h
    split_ifs at h with hAwait
    obtain ⟨_, hReturn, rfl⟩ := map_eq_some_iff.mp h
    obtain ⟨hDone, hReturned⟩ := done_of_returnWith hReturn
    exact .inr (.inr ⟨hAwait, hDone, hReturned⟩)

/-- What every run that ends its loop calmly keeps. -/
structure Leaving (s : EdgeSession) : Prop where
  winding : s.Winding
  pipe : s.core.PipeOk
  unwinds : s.core.dispatch.ended = true → s.core.Unwinds

theorem leaving_new (limits : SessionLimits) (commandCapacity : Nat) :
    (new limits commandCapacity).Leaving where
  winding := winding_new limits commandCapacity
  pipe := pipeOk_new _ _
  unwinds h := by cases h

/-- **Step lemma.** -/
theorem Leaving.step (hInv : s.Leaving) (hGuard : s.endsCalm a) (h : s.step a = some s') :
    s'.Leaving := by
  have hEffect := step_effect hInv.winding.side h
  refine ⟨hInv.winding.step h, hInv.pipe.step hEffect, fun hEnded => ?_⟩
  by_cases hLoop : s.core.dispatch.looping = true
  · exact unwinds_of_leaves hEffect hLoop hEnded (calm_of_guard hGuard h)
  · rcases step_left (by simpa using hLoop) h with ⟨b, -, hStep⟩ | hSame | ⟨-, -, hReturned⟩
    · exact unwinds_of_left hInv.unwinds hEnded (.inl ⟨b, hStep⟩)
    · exact unwinds_of_left hInv.unwinds hEnded (.inr (.inl hSame))
    · exact unwinds_of_left hInv.unwinds hEnded (.inr (.inr hReturned))

theorem Leaving.returns (hInv : s.Leaving) (hEnded : s.core.dispatch.ended = true) :
    ∃ actions s', (∀ a ∈ actions, EdgeAction.unaided a = true) ∧
      exec EdgeSession.step s actions = some s' ∧ s'.core.dispatch.isReturned = true := by
  refine returns_of_unwinds EdgeSession.core (fun a => EdgeAction.unaided a = true) Leaving
    (fun _ h => h.pipe) (fun _ h => h.unwinds) ?_ ?_ ?_ ?_ hInv hEnded
  · intro _ _ _ hInv hEnded hStep
    exact hInv.step (guard_of_left hEnded _) hStep
  · intro s a c' hUnaided hStep
    exact ⟨.core a, { s with core := c' }, hUnaided, by simp [EdgeSession.step, hStep], rfl⟩
  · intro _ hInv hJoining
    exact absurd hJoining hInv.winding.joining
  · intro s _ hAwait hDone
    obtain ⟨c', hReturn, -⟩ := returnWith_of_done hDone .completed
    exact ⟨.writerJoined, { s with core := c' }, .completed, rfl,
      by simp [EdgeSession.step, hAwait, hReturn], hReturn⟩

end EdgeSession

/-! ## Agent sessions -/

namespace AgentSession

variable {s s' : AgentSession} {a : AgentAction}

/-- A step that ends the loop without cancelling the tasks finds the session calm. -/
def endsCalm (s : AgentSession) (a : AgentAction) : Prop :=
  (s.step a).all (fun s' => !leavesLoop s.core s'.core || s.core.calm) = true

instance (s : AgentSession) (a : AgentAction) : Decidable (s.endsCalm a) :=
  inferInstanceAs (Decidable (_ = true))

/-- After the loop the function joins the tasks, and then awaits the writer. -/
theorem step_left (hLeft : s.core.dispatch.looping = false) (h : s.step a = some s') :
    (∃ b, a = .core b ∧ s.core.step b = some s'.core) ∨ s'.core = s.core ∨
      (s.core.dispatch = .joining ∧ (∀ t ∈ s.core.tasks, t.running = false) ∧
        s'.core = { s.core with dispatch := .awaitWriter }) ∨
      s.core.dispatch = .awaitWriter ∧ s.core.pipe.alive = false ∧
        s'.core.dispatch.isReturned = true := by
  obtain ⟨hSelect, hRead, hEof, hEvent, hSent, hFailed⟩ := branches_of_left hLeft
  cases a with
  | core b =>
    obtain ⟨_, hStep, rfl⟩ := map_eq_some_iff.mp h
    exact .inl ⟨b, rfl, hStep⟩
  | raiseShutdown =>
    cases h
    exact .inr (.inl rfl)
  | shutdown => simp [step, shutdown, hSelect] at h
  | drainDeadline => simp [step, drainDeadline, hSelect] at h
  | decode => simp [step, decode, hRead] at h
  | decodeEof => simp [step, decodeEof, hEof] at h
  | decodeErr => simp [step, decodeErr, hSelect] at h
  | event =>
    simp only [step, event, hEvent] at h
    split at h <;> cases h
  | writerResult => simp [step, writerResult, hSelect] at h
  | sent => simp [step, hSent] at h
  | sendFailed => simp [step, hFailed] at h
  | joined =>
    simp only [step, joined] at h
    split_ifs at h with hJoin
    cases h
    exact .inr (.inr (.inl ⟨hJoin.1, by simpa using hJoin.2, rfl⟩))
  | writerJoined =>
    simp only [step] at h
    split_ifs at h with hAwait
    obtain ⟨_, hReturn, rfl⟩ := map_eq_some_iff.mp h
    obtain ⟨hDone, hReturned⟩ := done_of_returnWith hReturn
    exact .inr (.inr (.inr ⟨hAwait, hDone, hReturned⟩))

/-- What every run that ends its loop calmly keeps. -/
structure Leaving (s : AgentSession) : Prop where
  side : s.core.side = .agent
  pipe : s.core.PipeOk
  unwinds : s.core.dispatch.ended = true → s.core.Unwinds

theorem leaving_new (limits : SessionLimits) (hasShutdown : Bool) :
    (new limits hasShutdown).Leaving where
  side := rfl
  pipe := pipeOk_new _ _
  unwinds h := by cases h

/-- **Step lemma.** -/
theorem Leaving.step (hInv : s.Leaving) (hGuard : s.endsCalm a) (h : s.step a = some s') :
    s'.Leaving := by
  have hEffect := step_effect 0 hInv.side h
  refine ⟨hEffect.fixed.1.trans hInv.side, hInv.pipe.step hEffect, fun hEnded => ?_⟩
  by_cases hLoop : s.core.dispatch.looping = true
  · exact unwinds_of_leaves hEffect hLoop hEnded (calm_of_guard hGuard h)
  · rcases step_left (by simpa using hLoop) h with
      ⟨b, -, hStep⟩ | hSame | ⟨hJoining, -, hNext⟩ | ⟨-, -, hReturned⟩
    · exact unwinds_of_left hInv.unwinds hEnded (.inl ⟨b, hStep⟩)
    · exact unwinds_of_left hInv.unwinds hEnded (.inr (.inl hSame))
    · have hBefore := hInv.unwinds (by rw [hJoining]; rfl)
      rw [hNext]
      exact ⟨hBefore.streams, hBefore.calm⟩
    · exact unwinds_of_left hInv.unwinds hEnded (.inr (.inr hReturned))

theorem Leaving.returns (hInv : s.Leaving) (hEnded : s.core.dispatch.ended = true) :
    ∃ actions s', (∀ a ∈ actions, AgentAction.unaided a = true) ∧
      exec AgentSession.step s actions = some s' ∧ s'.core.dispatch.isReturned = true := by
  refine returns_of_unwinds AgentSession.core (fun a => AgentAction.unaided a = true) Leaving
    (fun _ h => h.pipe) (fun _ h => h.unwinds) ?_ ?_ ?_ ?_ hInv hEnded
  · intro _ _ _ hInv hEnded hStep
    exact hInv.step (guard_of_left hEnded _) hStep
  · intro s a c' hUnaided hStep
    exact ⟨.core a, { s with core := c' }, hUnaided, by simp [AgentSession.step, hStep], rfl⟩
  · intro s _ hJoining hNone
    have hAll : s.core.tasks.all (!·.running) = true := by simpa using hNone
    exact ⟨.joined, { s with core := { s.core with dispatch := .awaitWriter } }, rfl,
      if_pos ⟨hJoining, hAll⟩, rfl⟩
  · intro s _ hAwait hDone
    obtain ⟨c', hReturn, -⟩ := returnWith_of_done hDone s.closeReason
    exact ⟨.writerJoined, { s with core := c' }, s.closeReason, rfl,
      by simp [AgentSession.step, hAwait, hReturn], hReturn⟩

end AgentSession

/-! ## Sessions that do not return -/

namespace Pipeline

variable {p p' : Pipeline}

/-- The writer goes round in its loop with nothing to write. -/
def waiting (p : Pipeline) : Bool :=
  p.controlOpen && p.dataOpen && p.control.isEmpty && p.data.isEmpty && p.scheduled.len = 0 &&
    match p.phase with
    | .fill | .control | .data | .select | .selectData => true
    | _ => false

theorem waiting_step {a : WriterAction} (h : p.waiting = true) (hStep : p.step false a = some p') :
    p'.waiting = true := by
  simp only [waiting, Bool.and_eq_true, decide_eq_true_eq, List.isEmpty_iff] at h
  obtain ⟨⟨⟨⟨⟨hControlOpen, hDataOpen⟩, hControl⟩, hData⟩, hScheduled⟩, hPhase⟩ := h
  have hPop : p.scheduled.pop = none := BoundedFairQueue.pop_eq_none_iff.mpr hScheduled
  -- a turn only moves on to the next phase
  have hMoves : ∀ next, (match next with
      | .fill | .control | .data | .select | .selectData => true
      | _ => false) = true → ({ p with phase := next } : Pipeline).waiting = true := by
    intro _ hNext
    simp only [waiting, hControlOpen, hDataOpen, hControl, hData, hScheduled, isEmpty_nil,
      decide_true, Bool.and_true, hNext]
  cases a with
  | turn =>
    cases (turnWith_turned ((stepWith_same p false .turn).trans hStep)).1 with
    | takesControl _ _ hCons => cases hControl.symm.trans hCons
    | takesData _ _ hSome => cases hPop.symm.trans hSome
    | schedules _ _ _ hCons | overflows _ _ hCons => cases hData.symm.trans hCons
    | closesControl _ _ hGone | closesData _ _ hGone => cases hGone
    | ends _ hClosed => cases hControlOpen.symm.trans hClosed
    | filled | passes | waits | waitsData | waitsAgain => exact hMoves _ rfl
  | wrote =>
    cases hNow : p.phase <;> simp [hNow] at hPhase <;>
      simp [Pipeline.step, Pipeline.wrote, hNow] at hStep
  | failed =>
    cases hNow : p.phase <;> simp [hNow] at hPhase <;>
      simp [Pipeline.step, Pipeline.failed, hNow] at hStep
  | finished =>
    cases hNow : p.phase <;> simp [hNow] at hPhase <;>
      simp [Pipeline.step, Pipeline.finished, hNow] at hStep

theorem alive_of_waiting (h : p.waiting = true) : p.alive = true := by
  simp only [waiting, Bool.and_eq_true] at h
  unfold alive
  cases hPhase : p.phase <;> simp [hPhase] at h ⊢

end Pipeline

namespace StreamTask

variable {t t' : StreamTask} {e : TaskEvent}

/-- A task in `write_all` waits for whoever reads its socket. -/
theorem aided_of_writing {rest : List UInt8} (hPhase : t.phase = .writing rest)
    (h : t.step e = some t') : e.unaided = false := by
  cases e with
  | wrote | writeErr | connected | connectFailed | read | readEof | readErr => rfl
  | recv =>
    cases hInbound : t.inbound <;> simp [step, hInbound, onFrame, hPhase] at h
  | _ => simp [step, onSent, onSendFailed, onClosed, hPhase] at h

/-- A task that waits for a queue waits for nothing else. -/
theorem sends_only {send : Send} (hSend : t.pendingSend = some send) (h : t.step e = some t') :
    e = .sent ∨ e = .sendFailed := by
  cases hPhase : t.phase <;> simp only [pendingSend, hPhase, reduceCtorEq] at hSend
  all_goals
    cases e with
    | sent => exact .inl rfl
    | sendFailed => exact .inr rfl
    | recv => cases hInbound : t.inbound <;> simp [step, hInbound, onFrame, hPhase] at h
    | _ => simp [step, onClosed, onRead, onReadEof, onWrote, hPhase] at h

end StreamTask

namespace Core

variable {c c' : Core}

/-- A step of a task of the session is a step of the task. -/
theorem task_of_step {i : Nat} {e : TaskEvent} (h : c.step (.task i e) = some c') :
    ∃ t t', c.tasks[i]? = some t ∧ t.step e = some t' := by
  cases step_effect h with
  | task i t t' e hTask hStep | control i t t' frame pipe hTask hStep
  | data i t t' frame pipe hTask hStep | closed i t t' hTask hStep => exact ⟨t, t', hTask, hStep⟩

/-- A stream task writes to a socket that nobody reads, and the writer waits for it. -/
structure Blocked (c : Core) : Prop where
  dispatch : c.dispatch = .awaitWriter
  kept : c.aborting = false
  tasks : ∃ rest, c.tasks.map (·.phase) = [.writing rest]
  writer : c.pipe.waiting = true

theorem Blocked.step {a : CoreAction} (h : c.Blocked) (hUnaided : a.unaided = true)
    (hStep : c.step a = some c') : c'.Blocked := by
  obtain ⟨rest, hPhases⟩ := h.tasks
  obtain ⟨t, hTasks, hPhase⟩ := map_eq_singleton_iff.mp hPhases
  cases step_effect hStep with
  | abort _ _ _ _ hAborting => cases h.kept.symm.trans hAborting
  | writer _ _ hWrite =>
    have hLeft : c.disconnected = false := by simp [disconnected, hTasks, running, hPhase]
    rw [hLeft] at hWrite
    exact { h with writer := Pipeline.waiting_step h.writer hWrite }
  | arrive | depart | arriveEof => exact { h with }
  | _ =>
    -- only the reader of the socket moves the task
    exfalso
    obtain ⟨u, _, hu, hEvent⟩ := task_of_step hStep
    obtain rfl : u = t := mem_singleton.mp (hTasks ▸ mem_of_getElem? hu)
    cases (aided_of_writing hPhase hEvent).symm.trans hUnaided

/-- A stream task waits for room among events that nobody takes. -/
structure Full (c : Core) : Prop where
  dispatch : c.dispatch = .joining
  kept : c.aborting = false
  tasks : c.tasks.map (·.phase) = [.ended, .closing]
  events : c.limits.maxStreams ≤ c.events.length

theorem Full.step {a : CoreAction} (h : c.Full) (hStep : c.step a = some c') : c'.Full := by
  have hReturned : c.dispatch.isReturned = false := by rw [h.dispatch]; rfl
  have hNoRoom : ¬ c.events.length < c.limits.maxStreams := Nat.not_lt.mpr h.events
  -- the event queue has no room, and its receiver is still there
  have hStuck : ∀ i e, c.step (.task i e) ≠ some c' := by
    intro i e hStep
    obtain ⟨x, _, hx, hEvent⟩ := task_of_step hStep
    have hMem : x.phase ∈ [.ended, .closing] := h.tasks ▸ mem_map_of_mem (mem_of_getElem? hx)
    have hPhase : x.phase = .closing := by
      have hRuns := running_of_step hEvent
      simpa [show x.phase ≠ .ended by simpa [running] using hRuns] using hMem
    have hSend : x.pendingSend = some .closed := by simp only [pendingSend, hPhase]
    rcases sends_only hSend hEvent with rfl | rfl
    · simp [Core.step, taskStep, hx, taskSent, hEvent, hSend, hNoRoom] at hStep
    · simp [Core.step, taskStep, hx, taskSendFailed, hEvent, hSend, hReturned] at hStep
  cases step_effect hStep with
  | abort _ _ _ _ hAborting => cases h.kept.symm.trans hAborting
  | writer | arrive | depart | arriveEof => exact { h with }
  | _ => exact absurd hStep (hStuck _ _)

end Core

theorem AgentSession.full_step {s s' : AgentSession} {a : AgentAction} (h : s.core.Full)
    (hStep : s.step a = some s') : s'.core.Full := by
  rcases step_left (by rw [h.dispatch]; rfl) hStep with
    ⟨b, -, hCore⟩ | hSame | ⟨-, hNone, -⟩ | ⟨hAwait, -, -⟩
  · exact h.step hCore
  · rw [hSame]
    exact h
  · obtain ⟨u, hu, hClosing⟩ : ∃ u ∈ s.core.tasks, u.phase = .closing :=
      mem_map.mp (by simp [h.tasks])
    have hEnded := hNone u hu
    simp [running, hClosing] at hEnded
  · rw [h.dispatch] at hAwait
    cases hAwait

/-! ## Teardown -/

namespace Example

open Sample

/-- A stream is opened, and its OPEN_STREAM is written and answered. -/
def opened : List EdgeAction :=
  [.enqueue .open, .command, .core (.task 0 .sent), .core (.writer .turn), .core (.writer .turn),
    .core (.writer (.wrote 16)), .core (.arrive (openBytes 1)), .decode 16, .core (.task 0 .recv)]

/-- The Agent ends the session while the stream relays. -/
def edgeCalm : List EdgeAction := opened ++ [.core .arriveEof, .decodeEof]

/-- The Edge ends the session while the task connects. -/
def agentCalm : List AgentAction :=
  [.core (.arrive (openBytes 1)), .decode 16, .core .arriveEof, .decodeEof]

/-- A DATA frame reaches the task, and the Agent's end of file the loop, while the client does
not read. -/
def unread : List EdgeAction :=
  opened ++ [.core (.arrive (dataBytes 1 7)), .decode 16, .decode 1, .core (.task 0 .recv),
    .core .arriveEof, .decodeEof]

/-- The first stream fails and leaves its event; a late frame takes it out of the map before the
event is taken, so that a second stream is accepted, which fails as well. -/
def crowded : List AgentAction :=
  [.core (.arrive (openBytes 1)), .decode 16, .core (.arrive (dataBytes 1 7 ++ openBytes 2)),
    .core (.task 0 .connectFailed), .core (.task 0 .sent), .core (.task 0 .sent),
    .decode 16, .decode 1, .sent, .decode 16, .core .arriveEof, .decodeEof,
    .core (.task 1 .connectFailed), .core (.task 1 .sent)]

end Example

/-- **Teardown needs no third party** when the loop ends calmly: whatever happens in between,
from every state between the end of the loop and the return, steps that no public client and no
local service takes part in lead to the return. -/
theorem teardown_unaided (limits : SessionLimits) :
    (∀ (commandCapacity : Nat) (run : List EdgeAction) (s : EdgeSession),
      Guarded EdgeSession.step EdgeSession.endsCalm (.new limits commandCapacity) run →
      exec EdgeSession.step (.new limits commandCapacity) run = some s →
      s.core.dispatch.ended = true →
      ∃ actions s', (∀ a ∈ actions, EdgeAction.unaided a = true) ∧
        exec EdgeSession.step s actions = some s' ∧ s'.core.dispatch.isReturned = true) ∧
    ∀ (hasShutdown : Bool) (run : List AgentAction) (s : AgentSession),
      Guarded AgentSession.step AgentSession.endsCalm (.new limits hasShutdown) run →
      exec AgentSession.step (.new limits hasShutdown) run = some s →
      s.core.dispatch.ended = true →
      ∃ actions s', (∀ a ∈ actions, AgentAction.unaided a = true) ∧
        exec AgentSession.step s actions = some s' ∧
          s'.core.dispatch.isReturned = true := by
  constructor
  · intro commandCapacity _ s hGuard hRun hEnded
    have hInv : s.Leaving := exec_induction_guarded
      (fun _ _ _ hInv hGuard hStep => hInv.step hGuard hStep)
      (EdgeSession.leaving_new limits commandCapacity) hGuard hRun
    exact hInv.returns hEnded
  · intro hasShutdown _ s hGuard hRun hEnded
    have hInv : s.Leaving := exec_induction_guarded
      (fun _ _ _ hInv hGuard hStep => hInv.step hGuard hStep)
      (AgentSession.leaving_new limits hasShutdown) hGuard hRun
    exact hInv.returns hEnded

open Example in
theorem teardown_unaided_relaying :
    (∃ s actions s', exec EdgeSession.step (.new Sample.limits 1) edgeCalm = some s ∧
      s.core.dispatch = .awaitWriter ∧ s.core.runningTasks = 1 ∧
      (∀ a ∈ actions, EdgeAction.unaided a = true) ∧
      exec EdgeSession.step s actions = some s' ∧ s'.core.dispatch.isReturned = true) ∧
    ∃ s actions s', exec AgentSession.step (.new Sample.limits false) agentCalm = some s ∧
      s.core.dispatch = .joining ∧ s.core.runningTasks = 1 ∧
      (∀ a ∈ actions, AgentAction.unaided a = true) ∧
      exec AgentSession.step s actions = some s' ∧
        s'.core.dispatch.isReturned = true := by
  constructor
  · obtain ⟨s, hExec, hDispatch, hRunning⟩ : ∃ s,
        exec EdgeSession.step (.new Sample.limits 1) edgeCalm = some s ∧
          s.core.dispatch = .awaitWriter ∧
        s.core.runningTasks = 1 := by decide +kernel
    obtain ⟨actions, s', hUnaided, hActions, hReturned⟩ := (teardown_unaided Sample.limits).1 1
      edgeCalm s (by decide +kernel) hExec (by rw [hDispatch]; rfl)
    exact ⟨s, actions, s', hExec, hDispatch, hRunning, hUnaided, hActions, hReturned⟩
  · obtain ⟨s, hExec, hDispatch, hRunning⟩ : ∃ s,
        exec AgentSession.step (.new Sample.limits false) agentCalm = some s ∧
        s.core.dispatch = .joining ∧ s.core.runningTasks = 1 := by decide +kernel
    obtain ⟨actions, s', hUnaided, hActions, hReturned⟩ := (teardown_unaided Sample.limits).2 false
      agentCalm s (by decide +kernel) hExec (by rw [hDispatch]; rfl)
    exact ⟨s, actions, s', hExec, hDispatch, hRunning, hUnaided, hActions, hReturned⟩

open Example in
/-- **A session that waits for a third party, and one that waits for nobody.** The Edge session
awaits a writer that waits for a task that waits for the client; the Agent session joins a task
that waits for room among events that it does not take any more, and no step at all gets it
out of there. -/
theorem teardown_stuck : (∃ s, exec EdgeSession.step (.new Sample.limits 1) unread = some s ∧
      s.core.dispatch.ended = true ∧
      ∀ actions s', (∀ a ∈ actions, EdgeAction.unaided a = true) →
        exec EdgeSession.step s actions = some s' →
          s'.core.dispatch.isReturned = false) ∧
    ∃ s, exec AgentSession.step (.new Sample.limits false) crowded = some s ∧
      s.core.dispatch.ended = true ∧
      ∀ actions s', exec AgentSession.step s actions = some s' →
        s'.core.dispatch.isReturned = false := by
  constructor
  · obtain ⟨s, hExec, hDispatch, hKept, hPhases, hWaiting⟩ : ∃ s,
        exec EdgeSession.step (.new Sample.limits 1) unread = some s ∧
        s.core.dispatch = .awaitWriter ∧ s.core.aborting = false ∧
        s.core.tasks.map (·.phase) = [.writing [7]] ∧ s.core.pipe.waiting := by decide +kernel
    have hBlocked : s.core.Blocked := ⟨hDispatch, hKept, ⟨[7], hPhases⟩, hWaiting⟩
    refine ⟨s, hExec, by rw [hDispatch]; rfl, fun actions s' hUnaided hActions => ?_⟩
    -- unaided, the socket takes nothing and the task holds the sender of the writer
    have hStill : s'.core.Blocked := by
      refine exec_induction_guarded (P := fun s : EdgeSession => s.core.Blocked)
        (G := fun _ a => EdgeAction.unaided a = true) ?_ hBlocked
        (guarded_of_forall hUnaided) hActions
      intro _ _ _ h hAlone hStep
      rcases EdgeSession.step_left (by rw [h.dispatch]; rfl) hStep with
        ⟨_, rfl, hCore⟩ | hSame | ⟨-, hDone, -⟩
      · exact h.step hAlone hCore
      · rw [hSame]
        exact h
      · rw [Pipeline.alive_of_waiting h.writer] at hDone
        cases hDone
    rw [hStill.dispatch]
    rfl
  · obtain ⟨s, hExec, hDispatch, hKept, hPhases, hEvents⟩ : ∃ s,
        exec AgentSession.step (.new Sample.limits false) crowded = some s ∧
        s.core.dispatch = .joining ∧ s.core.aborting = false ∧
        s.core.tasks.map (·.phase) = [.ended, .closing] ∧
        s.core.limits.maxStreams ≤ s.core.events.length := by decide +kernel
    have hFull : s.core.Full := ⟨hDispatch, hKept, hPhases, hEvents⟩
    refine ⟨s, hExec, by rw [hDispatch]; rfl, fun actions s' hActions => ?_⟩
    -- nobody receives the events any more, so the closing task waits for ever
    have hStill : s'.core.Full := exec_induction
      (fun _ _ _ h hStep => AgentSession.full_step h hStep) hFull hActions
    rw [hStill.dispatch]
    rfl

end TunnelProxy.Mux
