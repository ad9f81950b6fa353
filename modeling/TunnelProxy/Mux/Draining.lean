import TunnelProxy.Mux.Tasks
import TunnelProxy.Mux.WriterProgress
import TunnelProxy.Lib.TreeMap

/-!
# A session that is told to drain

`BeginDrain` makes `run_edge_session` leave its loop when no stream is left: at once, or
when the last `Closed` event is taken. What could go wrong is that the map is empty while
no event is due, or that it never becomes empty because a task ended without an event.
Neither happens (`Winding`), and so a session that has the command and no running stream
returns by its own steps: commands, events, its own control frame, and the writer's turns
as far as the transport takes its bytes (`returns_of_told`).
-/

namespace TunnelProxy.Mux

open Protocol Common Std Transition List Option Mux.Core Dispatch Pipeline

/-! ## A stream task ends with an event -/

namespace StreamTask

variable {t' : StreamTask}

/-- The last step of a task is the one that hands over its `Closed`. -/
theorem running_or_closing {t : StreamTask} {e : TaskEvent} (h : t.step e = some t') :
    t'.running = true ∨ t.phase = .closing ∧ (e = .sent ∨ e = .sendFailed) := by
  cases step_move h with
  | drop _ he hPhase => exact .inr ⟨hPhase, he⟩
  | sentData | written | shutdownOk => exact .inl (running_loopTop _)
  | opened _ hPhase =>
    refine .inl ?_
    rcases hPhase with ⟨-, rfl⟩ | ⟨-, rfl⟩ <;> rfl
  | recv frame _ _ _ hFrame =>
    refine .inl ?_
    cases (onFrame_effect hFrame).2 with
    | empty => exact running_loopTop _
    | _ => rfl
  | _ => exact .inl rfl

end StreamTask

namespace Core

variable {c c' : Core} {i : Nat} {next next' : UInt32} {turn : Turn} {streamId : StreamId}

/-- Running tasks go on or leave an event, and events stay. -/
structure Outlives (c c' : Core) : Prop where
  tasks : ∀ (i : Nat) (t : StreamTask), c.tasks[i]? = some t → t.running →
    (∃ t', c'.tasks[i]? = some t' ∧ t'.running) ∨ t.id ∈ c'.events
  events : c.events ⊆ c'.events

theorem outlives_of_same (hTasks : c'.tasks = c.tasks) (hEvents : c'.events = c.events) :
    Outlives c c' where
  tasks _ t hTask hRuns := .inl ⟨t, hTasks ▸ hTask, hRuns⟩
  events := hEvents ▸ Subset.refl _

theorem outlives_of_set {t t' : StreamTask} (hTask : c.tasks[i]? = some t)
    (hTasks : c'.tasks = c.tasks.set i t') (hEnds : t'.running ∨ t.id ∈ c'.events)
    (hEvents : c.events ⊆ c'.events) : Outlives c c' where
  tasks j u hu hRuns := by
    by_cases hj : i = j
    · subst hj
      cases hTask.symm.trans hu
      refine hEnds.imp_left fun hRuns' => ⟨t', ?_, hRuns'⟩
      simp [hTasks, (List.getElem?_eq_some_iff.mp hTask).1]
    · exact .inl ⟨u, by simp [hTasks, hj, hu], hRuns⟩
  events := hEvents

theorem outlives_core {a : CoreAction} (hLoop : c.dispatch.looping) (hKept : c.aborting = false)
    (h : c.step a = some c') : Outlives c c' := by
  cases step_effect h with
  | task i t t' _ hTask hStep hEvent =>
    refine outlives_of_set hTask rfl (.inl ?_) (Subset.refl _)
    rcases StreamTask.running_or_closing hStep with hRuns | ⟨hPhase, rfl | rfl⟩
    · exact hRuns
    · exact absurd rfl hEvent
    · have hFailed : c.taskSendFailed i t = some (c.setTask i t') := by
        simpa [step, taskStep, hTask] using h
      -- while the loop runs, `Closed` is never refused
      have hReturned : c.dispatch.isReturned = false := by
        cases hDispatch : c.dispatch <;> simp [hDispatch, looping] at hLoop <;> rfl
      simp [taskSendFailed, StreamTask.pendingSend, hPhase, hReturned] at hFailed
  | control i t t' frame pipe hTask hStep hSend | data i t t' frame pipe hTask hStep hSend =>
    refine outlives_of_set hTask rfl (.inl ?_) (Subset.refl _)
    rcases StreamTask.running_or_closing hStep with hRuns | ⟨hPhase, -⟩
    · exact hRuns
    · simp [StreamTask.pendingSend, hPhase] at hSend
  | closed _ _ _ hTask =>
    exact outlives_of_set hTask rfl (.inr (by simp)) (subset_append_left _ _)
  | abort _ _ _ _ hAborting => cases hKept.symm.trans hAborting
  | writer | arrive | arriveEof | depart => exact outlives_of_same rfl rfl

/-- A step after which the loop runs was taken while it ran, and cancels nothing. -/
theorem SessionEffect.looping (h : SessionEffect c turn next next' c')
    (hLoop : c'.dispatch.looping) :
    c.dispatch.looping ∧ c'.aborting = c.aborting := by
  cases h with
  | core _ _ _ hStep =>
    have hEffect := step_effect hStep
    refine ⟨hEffect.outside.dispatch ▸ hLoop, ?_⟩
    cases hEffect <;> rfl
  | same => exact ⟨hLoop, rfl⟩
  | read _ _ _ _ _ hRead hHandled =>
    obtain ⟨hSelect, -, -, -, rfl⟩ := read_eq hRead
    refine ⟨by simp [hSelect, looping], ?_⟩
    rcases hHandled.outside with hStop | ⟨_, _, _, rfl⟩
    · simp [hStop.looping] at hLoop
    · rfl
  | spawn _ hSelect =>
    refine ⟨by simp [hSelect, looping], ?_⟩
    unfold Core.spawn
    split <;> rfl
  | event _ _ _ hSelect _ _ hNext =>
    rcases hNext with rfl | hStop
    · exact ⟨by simp [hSelect, looping], rfl⟩
    · simp [hStop.looping] at hLoop
  | ping _ hSelect => exact ⟨by simp [hSelect, looping], rfl⟩
  | sent _ _ hSending _ _ hNext =>
    rcases hNext with rfl | hStop
    · exact ⟨by simp [hSending, looping], rfl⟩
    · simp [hStop.looping] at hLoop
  | stop _ hStop => simp [hStop.looping] at hLoop

theorem outlives_of_append {started : List StreamTask} (hTasks : c'.tasks = c.tasks ++ started)
    (hEvents : c'.events = c.events) : Outlives c c' where
  tasks i t hTask hRuns := by
    refine .inl ⟨t, ?_, hRuns⟩
    rw [hTasks]
    exact (getElem?_append_left (List.getElem?_eq_some_iff.mp hTask).1).trans hTask
  events := hEvents ▸ Subset.refl _

theorem spawn_eq (hId : streamId ≠ StreamId.control) : (c.spawn streamId).tasks =
        c.tasks ++ [StreamTask.start c.side streamId hId c.received.length] ∧
      (c.spawn streamId).events = c.events := by
  simp [Core.spawn, hId]

/-- While the loop runs, only the branch for events takes one. -/
theorem SessionEffect.outlives (h : SessionEffect c turn next next' c')
    (hLoop : c'.dispatch.looping) (hKept : c.aborting = false) :
    Outlives c c' ∨ ∃ streamId rest, turn = .event ∧ c.events = streamId :: rest ∧
      c' = removeStream { c with events := rest } streamId := by
  have hBefore := h.looping hLoop
  cases h with
  | core _ _ _ hStep => exact .inl (outlives_core hBefore.1 hKept hStep)
  | same | ping => exact .inl (outlives_of_same rfl rfl)
  | read _ _ _ _ _ hRead hHandled =>
    obtain ⟨-, -, -, -, rfl⟩ := read_eq hRead
    refine .inl ?_
    cases hHandled with
    | incomplete | keep | send => exact outlives_of_same rfl rfl
    | stop _ _ hStop => simp [hStop.looping] at hLoop
    | forward _ _ _ hForward =>
      cases hForward with
      | delivered _ _ _ hTask hRuns =>
        exact outlives_of_set hTask rfl (.inl hRuns) (Subset.refl _)
      | removed | ignored => exact outlives_of_same rfl rfl
    | spawn frame _ hType =>
      have hId : frame.streamId ≠ StreamId.control := streamId_ne_control (by rw [hType]; rfl)
      exact outlives_of_append (spawn_eq hId).1 (spawn_eq hId).2
  | spawn _ _ hId =>
    exact .inl (outlives_of_append (spawn_eq hId).1 (spawn_eq hId).2)
  | event streamId rest hTurn _ hEvents _ hNext =>
    rcases hNext with rfl | hStop
    · exact .inr ⟨streamId, rest, hTurn, hEvents, rfl⟩
    · simp [hStop.looping] at hLoop
  | sent _ _ _ _ _ hNext =>
    rcases hNext with rfl | hStop
    · exact .inl (outlives_of_same rfl rfl)
    · simp [hStop.looping] at hLoop
  | stop _ hStop => simp [hStop.looping] at hLoop

/-- Some stream is running, or its end is still to be noticed. -/
def busy (c : Core) : Prop := (∃ t ∈ c.tasks, t.running) ∨ c.events ≠ []

/-- While the loop runs, every entry of the map has a running task or an event. -/
structure Lasting (c : Core) : Prop where
  kept : c.dispatch.looping → c.aborting = false
  ends : c.dispatch.looping → ∀ (streamId : StreamId) (i : Nat), c.streams[streamId]? = some i →
    (∃ t, c.tasks[i]? = some t ∧ t.running) ∨ streamId ∈ c.events

theorem Outlives.busy (h : Outlives c c') (hBusy : c.busy) : c'.busy := by
  rcases hBusy with ⟨t, ht, hRuns⟩ | hEvents
  · obtain ⟨i, hi⟩ := getElem?_of_mem ht
    rcases h.tasks i t hi hRuns with ⟨t', ht', hRuns'⟩ | hEvent
    · exact .inl ⟨t', mem_of_getElem? ht', hRuns'⟩
    · exact .inr (ne_nil_of_mem hEvent)
  · obtain ⟨_, hMem⟩ := exists_mem_of_ne_nil _ hEvents
    exact .inr (ne_nil_of_mem (h.events hMem))

theorem Lasting.busy (h : c.Lasting) (hLoop : c.dispatch.looping)
    (hStreams : c.streams.isEmpty = false) : c.busy := by
  obtain ⟨streamId, hMem⟩ : ∃ streamId, streamId ∈ c.streams := by
    by_contra hNone
    refine ExtTreeMap.isEmpty_eq_false_iff.mp hStreams ?_
    exact ExtTreeMap.eq_empty_iff_forall_not_mem.mpr fun a ha => hNone ⟨a, ha⟩
  obtain ⟨i, hEntry⟩ := TreeMap.mem_iff_exists.mp hMem
  rcases h.ends hLoop streamId i hEntry with ⟨t, ht, hRuns⟩ | hEvent
  · exact .inl ⟨t, mem_of_getElem? ht, hRuns⟩
  · exact .inr (ne_nil_of_mem hEvent)

/-- An entry that was there before still has its task or event. -/
theorem Lasting.outlived (h : c.Lasting) (hTasks : c.TasksOk) (hLoop : c.dispatch.looping)
    (hOut : Outlives c c') (hEntry : c.streams[streamId]? = some i) :
    (∃ t, c'.tasks[i]? = some t ∧ t.running) ∨ streamId ∈ c'.events := by
  rcases h.ends hLoop streamId i hEntry with ⟨t, ht, hRuns⟩ | hEvent
  · obtain ⟨_, hu, hId⟩ := hTasks.mapped streamId i hEntry
    cases ht.symm.trans hu
    rw [← hId]
    exact hOut.tasks i t ht hRuns
  · exact .inr (hOut.events hEvent)

theorem Lasting.step (h : c.Lasting) (hTasks : c.TasksOk)
    (hEffect : SessionEffect c turn next next' c') : c'.Lasting where
  kept hLoop := by
    obtain ⟨hBefore, hAborting⟩ := hEffect.looping hLoop
    rw [hAborting]
    exact h.kept hBefore
  ends hLoop streamId i hEntry := by
    obtain ⟨hBefore, -⟩ := hEffect.looping hLoop
    rcases hEffect.outlives hLoop (h.kept hBefore) with hOut | ⟨closed, _, -, hEvents, rfl⟩
    · cases hEffect.change with
      | task _ _ _ _ _ _ _ hStreams =>
        exact h.outlived hTasks hBefore hOut (hStreams ▸ hEntry)
      | map _ hStreams =>
        rcases hStreams with hStreams | hStreams | ⟨_, hStreams⟩
        · exact h.outlived hTasks hBefore hOut (hStreams ▸ hEntry)
        · simp [hStreams] at hEntry
        · rw [hStreams, ExtTreeMap.getElem?_erase] at hEntry
          split_ifs at hEntry
          exact h.outlived hTasks hBefore hOut hEntry
      | spawn started hId born hAppend hStreams =>
        rw [hStreams, ExtTreeMap.getElem?_insert] at hEntry
        split_ifs at hEntry
        · cases hEntry
          refine .inl ⟨StreamTask.start c.side started hId born, ?_, ?_⟩
          · rw [hAppend]
            exact getElem?_concat_length
          · cases hSide : c.side <;> rfl
        · exact h.outlived hTasks hBefore hOut hEntry
    · -- the event of `closed` is taken together with its entry
      simp only [removeStream, ExtTreeMap.getElem?_erase] at hEntry
      split_ifs at hEntry with hNe
      refine (h.ends hBefore streamId i hEntry).imp_right fun hMem => ?_
      rw [hEvents] at hMem
      refine (mem_cons.mp hMem).resolve_left fun hEq => hNe ?_
      rw [hEq]
      exact Std.compare_eq_iff_eq.mpr rfl

/-! ## The pipeline of a session -/

/-- What a session step does to the pipeline: a frame is accepted, the writer goes on, or
the transport carries bytes away. -/
theorem SessionEffect.pipe_induction {P : Pipeline → Prop} (h : SessionEffect c turn next next' c')
    (hControl : ∀ o pipe, c.pipe.pushControl o = some pipe → P pipe)
    (hData : ∀ o pipe, c.pipe.pushData o = some pipe → P pipe)
    (hWriter : ∀ a pipe, c.pipe.step c.disconnected a = some pipe → P pipe)
    (hDepart : ∀ n, P (c.pipe.depart n)) (hSame : P c.pipe) : P c'.pipe := by
  cases h with
  | core a _ _ hStep =>
    cases step_effect hStep with
    | control _ _ _ _ pipe _ _ _ hPush => exact hControl _ pipe hPush
    | data _ _ _ _ pipe _ _ _ hPush => exact hData _ pipe hPush
    | writer a pipe hWrite => exact hWriter a pipe hWrite
    | depart n => exact hDepart n
    | task | closed | abort | arrive | arriveEof => exact hSame
  | same | ping => exact hSame
  | read _ _ _ _ _ hRead hHandled =>
    obtain ⟨-, -, -, -, rfl⟩ := read_eq hRead
    rw [hHandled.pipe]
    exact hSame
  | spawn =>
    unfold Core.spawn
    split <;> exact hSame
  | event _ _ _ _ _ _ hNext =>
    rcases hNext with rfl | hStop
    · exact hSame
    · rw [hStop.pipe]
      exact hSame
  | sent _ pipe _ hPush _ hNext =>
    rcases hNext with rfl | hStop
    · exact hControl _ pipe hPush
    · rw [hStop.pipe]
      exact hControl _ pipe hPush
  | stop _ hStop =>
    rw [hStop.pipe]
    exact hSame

theorem ready_step (hReady : c.pipe.Ready) (h : SessionEffect c turn next next' c') :
    c'.pipe.Ready := by
  refine h.pipe_induction ?_ ?_ (fun _ _ hStep => hReady.step hStep) ?_ hReady
  · intro _ _ hPush
    obtain ⟨-, rfl⟩ := pushControl_eq hPush
    exact hReady.congr rfl rfl rfl
  · intro _ _ hPush
    obtain ⟨-, rfl⟩ := pushData_eq hPush
    exact hReady.congr rfl rfl rfl
  · exact fun n => hReady.congr rfl rfl rfl

theorem not_disconnected_of_looping (hLoop : c.dispatch.looping) : c.disconnected = false := by
  cases hDispatch : c.dispatch <;> simp [hDispatch, looping] at hLoop <;>
    simp [disconnected, hDispatch, holdsSenders]

theorem controlOpen_step (h : SessionEffect c turn next next' c') (hLoop : c.dispatch.looping) :
    c'.pipe.controlOpen = c.pipe.controlOpen := by
  refine h.pipe_induction (P := fun pipe => pipe.controlOpen = c.pipe.controlOpen) ?_ ?_ ?_
    (fun _ => rfl) rfl
  · intro _ _ hPush
    obtain ⟨-, rfl⟩ := pushControl_eq hPush
    rfl
  · intro _ _ hPush
    obtain ⟨-, rfl⟩ := pushData_eq hPush
    rfl
  · intro _ _ hStep
    rw [not_disconnected_of_looping hLoop] at hStep
    -- the writer closes the control queue only when nobody can send any more
    cases Pipeline.step_effect hStep with
    | startControl | startData | schedule | stop => rfl
    | move _ _ _ _ _ _ hOpen =>
      rcases hOpen with hOpen | ⟨-, -, hGone⟩
      · exact hOpen
      · cases hGone
    | wrote _ _ _ _ _ _ _ _ hOpen => exact hOpen

theorem controlCapacity_step (h : SessionEffect c turn next next' c') :
    c'.pipe.controlCapacity = c.pipe.controlCapacity := by
  refine h.pipe_induction (P := fun pipe => pipe.controlCapacity = c.pipe.controlCapacity) ?_ ?_ ?_
    (fun _ => rfl) rfl
  · intro _ _ hPush
    obtain ⟨-, rfl⟩ := pushControl_eq hPush
    rfl
  · intro _ _ hPush
    obtain ⟨-, rfl⟩ := pushData_eq hPush
    rfl
  · intro _ _ hStep
    cases Pipeline.step_effect hStep with
    | startControl | startData | schedule | stop => rfl
    | move p' hSame | wrote n rest isData hPhase hPos hLen p' hSame => exact hSame.controlCapacity

end Core

/-! ## The session winds down -/

namespace EdgeSession

variable {s s' : EdgeSession} {a : EdgeAction} {core : Core}

/-- The fields of the loop that only commands change, and the phase it never has. -/
structure Keeps (s s' : EdgeSession) : Prop where
  draining : s'.draining = s.draining
  commands : s.commands ⊆ s'.commands
  joining : s.core.dispatch ≠ .joining → s'.core.dispatch ≠ .joining

theorem keeps_fail (error : SessionError) : Keeps s (s.fail error) :=
  ⟨rfl, Subset.refl _, nofun⟩

theorem keeps_endLoop (hSide : s.core.side = .edge) : Keeps s s.endLoop := by
  refine ⟨rfl, Subset.refl _, fun _ => ?_⟩
  simp [endLoop, Core.endLoop, hSide]

theorem keeps_core (h : s.core.dispatch ≠ .joining → core.dispatch ≠ .joining) :
    Keeps s { s with core } :=
  ⟨rfl, Subset.refl _, h⟩

/-- The core changed before, and the loop stayed where it was. -/
theorem Keeps.after (h : Keeps { s with core } s')
    (hDispatch : s.core.dispatch ≠ .joining → core.dispatch ≠ .joining) : Keeps s s' :=
  ⟨h.draining, h.commands, fun hNot => h.joining (hDispatch hNot)⟩

theorem keeps_forward {frame : Frame} (hForwards : forwards s.core.side frame) :
    Keeps s { s with core := s.core.forward frame } := by
  refine keeps_core fun hNot => ?_
  have hForward := forward_cases hForwards
  generalize s.core.forward frame = core at hForward
  cases hForward with
  | delivered => exact hNot
  | removed next hNext | ignored next hNext =>
    rcases hNext with rfl | ⟨_, rfl, -⟩
    · exact hNot
    · simp

theorem keeps_handleFrame (frame : Frame) (hSide : s.core.side = .edge) :
    Keeps s (s.handleFrame frame) := by
  unfold handleFrame
  split <;> rename_i hType
  · unfold pong
    split
    · exact keeps_fail _
    · split
      · exact keeps_fail _
      · split
        · exact keeps_fail _
        · exact ⟨rfl, Subset.refl _, fun h => h⟩
  · exact keeps_forward (by simp [forwards, hType, hSide])
  iterate 3
    · exact keeps_forward (by simp [forwards, hType])
  · exact keeps_fail _
  · exact keeps_fail _

/-- Every step but the branch for commands. -/
theorem keeps_step (hSide : s.core.side = .edge) (hNot : a ≠ .command)
    (h : s.step a = some s') : Keeps s s' := by
  cases a with
  | command => exact absurd rfl hNot
  | core =>
    obtain ⟨_, hStep, rfl⟩ := map_eq_some_iff.mp h
    refine keeps_core fun hNot => ?_
    rw [(Core.step_effect hStep).outside.dispatch]
    exact hNot
  | enqueue =>
    simp only [step] at h
    split_ifs at h
    cases h
    exact ⟨rfl, subset_append_left _ _, fun h => h⟩
  | dropCommands =>
    cases h
    exact ⟨rfl, Subset.refl _, fun h => h⟩
  | decode =>
    obtain ⟨⟨result, core⟩, hRead, rfl⟩ := map_eq_some_iff.mp h
    obtain ⟨-, -, -, -, hCore⟩ := read_eq hRead
    have hDispatch : s.core.dispatch ≠ .joining → core.dispatch ≠ .joining := by
      rw [hCore]
      exact fun hNot => hNot
    have hSide' : core.side = .edge := by
      rw [hCore]
      exact hSide
    rcases result with _ | _ | frame
    · exact keeps_core hDispatch
    · exact Keeps.after (keeps_fail _) hDispatch
    · exact Keeps.after (keeps_handleFrame frame hSide') hDispatch
  | decodeEof =>
    obtain ⟨result, _, rfl⟩ := map_eq_some_iff.mp h
    cases result with
    | ok => exact keeps_endLoop hSide
    | error => exact keeps_fail _
  | decodeErr =>
    simp only [step, decodeErr] at h
    split_ifs at h
    cases h
    exact keeps_fail _
  | event =>
    obtain ⟨_, hEvent, rfl⟩ := map_eq_some_iff.mp h
    obtain ⟨_, _, _, _, rfl⟩ := closedEvent_eq hEvent
    unfold drainedLoop
    split_ifs
    · exact Keeps.after (keeps_endLoop hSide) fun hNot => hNot
    · exact keeps_core fun hNot => hNot
  | heartbeat =>
    simp only [step, heartbeat] at h
    split_ifs at h
    split at h <;> cases h
    · exact keeps_fail _
    · refine keeps_core fun _ => ?_
      unfold send
      split <;> simp [Core.fail]
  | writerResult | writerJoined =>
    simp only [step] at h
    split_ifs at h
    obtain ⟨_, hReturn, rfl⟩ := map_eq_some_iff.mp h
    obtain ⟨_, -, rfl⟩ := map_eq_some_iff.mp hReturn
    exact keeps_core fun _ => by simp
  | sent =>
    obtain ⟨⟨_, _⟩, hSent, rfl⟩ := map_eq_some_iff.mp h
    obtain ⟨_, _, _, rfl⟩ := sent_eq hSent
    dsimp only
    split_ifs
    · split
      · exact ⟨rfl, Subset.refl _, fun _ => by simp⟩
      · exact ⟨rfl, Subset.refl _, fun _ => by simp [fail, Core.fail]⟩
    · exact ⟨rfl, Subset.refl _, fun _ => by simp⟩
  | sendFailed =>
    obtain ⟨_, hFailed, rfl⟩ := map_eq_some_iff.mp h
    unfold sendFailed at hFailed
    split at hFailed
    · split_ifs at hFailed
      cases hFailed
      exact keeps_fail _
    · cases hFailed

structure Winding (s : EdgeSession) : Prop where
  side : s.core.side = .edge
  tasks : s.core.TasksOk
  lasting : s.core.Lasting
  /-- A session that drains has a stream left to wait for. -/
  drains : s.core.dispatch.looping → s.draining = true → s.core.busy
  ready : s.core.pipe.Ready
  capacity : 0 < s.core.pipe.controlCapacity
  control : s.core.dispatch.looping → s.core.pipe.controlOpen = true
  joining : s.core.dispatch ≠ .joining

theorem winding_new (limits : SessionLimits) (commandCapacity : Nat) :
    (new limits commandCapacity).Winding where
  side := rfl
  tasks := tasksOk_new _ _
  lasting := ⟨fun _ => rfl, by simp [new, Core.new]⟩
  drains _ hDraining := by cases hDraining
  ready := ready_new _ _
  capacity := limits.controlQueue_pos
  control _ := rfl
  joining := by simp [new, Core.new]

theorem looping_endLoop (hSide : s.core.side = .edge) : s.endLoop.core.dispatch = .awaitWriter := by
  simp [endLoop, Core.endLoop, hSide]

/-- The loop leaves with the last stream, so a drain that goes on has another one. -/
theorem Winding.drains_step (h : s.Winding) (hLasting : s'.core.Lasting)
    (hStep : s.step a = some s') (hLoop : s'.core.dispatch.looping)
    (hDraining : s'.draining = true) : s'.core.busy := by
  have hEffect := step_effect h.side hStep
  obtain ⟨hBefore, -⟩ := hEffect.looping hLoop
  cases a with
  | command =>
    obtain ⟨_, hTakes⟩ := command_takes hStep
    cases hTakes with
    | ends commands draining =>
      rw [looping_endLoop (s := { s with commands, draining }) h.side] at hLoop
      cases hLoop
    | opens rest =>
      have hSame := openCommand_eq { s with commands := rest }
      rw [hSame.1] at hDraining
      rcases hEffect.outlives hLoop (h.lasting.kept hBefore) with hOut | ⟨_, _, hTurn, -⟩
      · exact hOut.busy (h.drains hBefore hDraining)
      · cases hTurn
    | drains _ _ hStreams => exact h.lasting.busy hBefore hStreams
  | event =>
    obtain ⟨core, hEvent, rfl⟩ := map_eq_some_iff.mp hStep
    unfold drainedLoop at hLoop hDraining hLasting ⊢
    split_ifs at hLoop hDraining hLasting ⊢ with hDone
    · have hSide : core.side = .edge := by
        obtain ⟨-, _, _, -, rfl⟩ := closedEvent_eq hEvent
        exact h.side
      rw [looping_endLoop (s := { s with core }) hSide] at hLoop
      cases hLoop
    · simp only [Bool.and_eq_true, not_and, Bool.not_eq_true] at hDone
      exact hLasting.busy hLoop (hDone hDraining)
  | _ =>
    have hKeeps := keeps_step h.side (by simp) hStep
    rw [hKeeps.draining] at hDraining
    rcases hEffect.outlives hLoop (h.lasting.kept hBefore) with hOut | ⟨_, _, hTurn, -⟩
    · exact hOut.busy (h.drains hBefore hDraining)
    · cases hTurn

theorem Winding.step (h : s.Winding) (hStep : s.step a = some s') : s'.Winding := by
  have hEffect := step_effect h.side hStep
  have hLasting := h.lasting.step h.tasks hEffect
  refine ⟨hEffect.fixed.1.trans h.side, tasksOk_step h.tasks hEffect, hLasting,
    h.drains_step hLasting hStep, ready_step h.ready hEffect, ?_, ?_, ?_⟩
  · rw [controlCapacity_step hEffect]
    exact h.capacity
  · intro hLoop
    obtain ⟨hBefore, -⟩ := hEffect.looping hLoop
    rw [controlOpen_step hEffect hBefore]
    exact h.control hBefore
  · by_cases hCommand : a = .command
    · subst hCommand
      obtain ⟨_, hTakes⟩ := command_takes hStep
      cases hTakes with
      | ends commands draining =>
        rw [looping_endLoop (s := { s with commands, draining }) h.side]
        simp
      | opens rest =>
        rw [(openCommand_eq { s with commands := rest }).2.2.1]
        exact h.joining
      | drains => exact h.joining
    · exact (keeps_step h.side hCommand hStep).joining h.joining

/-- The session has been told to drain: the command is queued, or taken, or the loop is
over. -/
def Told (s : EdgeSession) : Prop :=
  .beginDrain ∈ s.commands ∨ s.draining = true ∨ s.core.dispatch.looping = false

theorem Told.step (h : s.Told) (hSide : s.core.side = .edge) (hStep : s.step a = some s') :
    s'.Told := by
  by_cases hLoop : s'.core.dispatch.looping = false
  · exact .inr (.inr hLoop)
  have hBefore : s.core.dispatch.looping :=
    ((step_effect hSide hStep).looping (by simpa using hLoop)).1
  by_cases hCommand : a = .command
  · subst hCommand
    obtain ⟨_, hTakes⟩ := command_takes hStep
    cases hTakes with
    | ends commands draining =>
      rw [looping_endLoop (s := { s with commands, draining }) hSide] at hLoop
      exact absurd rfl hLoop
    | opens rest hCommands =>
      obtain ⟨hDraining, hRest, -⟩ := openCommand_eq { s with commands := rest }
      rcases h with hQueued | hTaken | hOver
      · rw [hCommands] at hQueued
        refine .inl ?_
        rw [hRest]
        exact (mem_cons.mp hQueued).resolve_left (by simp)
      · exact .inr (.inl (hDraining.trans hTaken))
      · simp [hOver] at hBefore
    | drains => exact .inr (.inl rfl)
  · have hKeeps := keeps_step hSide hCommand hStep
    rcases h with hQueued | hTaken | hOver
    · exact .inl (hKeeps.commands hQueued)
    · exact .inr (.inl (hKeeps.draining.trans hTaken))
    · simp [hOver] at hBefore

/-! ## And returns -/

/-- Steps that need nothing from the peer, from a stream or from the clock. -/
def own : EdgeAction → Bool
  | .command | .event | .sent | .sendFailed | .writerJoined => true
  | .core (.writer a) => a.succeeds
  | _ => false

/-- A stream of the session is running. -/
def streaming (s : EdgeSession) : Prop := ∃ t ∈ s.core.tasks, t.running

/-- What is left to do for a session without running streams. -/
def remaining (s : EdgeSession) : Nat :=
  100 * (s.commands.length + s.core.events.length) + s.core.pipe.work +
    match s.core.dispatch with
    | .sending _ => 20
    | .returned _ _ => 0
    | _ => 1

/-- The session has taken one of its steps, and has less to do. -/
def Advances (s : EdgeSession) : Prop :=
  ∃ a s', own a = true ∧ s.step a = some s' ∧ s'.remaining < s.remaining

theorem remaining_returned {error : Option SessionError} {reason : SessionCloseReason}
    (hPipe : core.pipe = s.core.pipe) (hEvents : core.events = s.core.events)
    (hReturned : core.dispatch = .returned error reason)
    (hBefore : s.core.dispatch.isReturned = false) : remaining { s with core } < s.remaining := by
  unfold remaining
  rw [hPipe, hEvents, hReturned]
  cases hDispatch : s.core.dispatch <;> simp [hDispatch, isReturned] at hBefore ⊢

/-- The writer's turn is a step of the session. -/
theorem advances_writer (h : s.Winding) (hAlive : s.core.pipe.alive)
    (hGo : s.core.disconnected = true ∨ s.core.pipe.control ≠ [] ∧ s.core.pipe.controlOpen = true) :
    s.Advances := by
  obtain ⟨a, pipe, hSucceeds, hStep, _⟩ := advances h.ready hAlive hGo
  refine ⟨.core (.writer a), { s with core := { s.core with pipe } }, hSucceeds, ?_, ?_⟩
  · simp [step, Core.step, hStep]
  · unfold remaining
    dsimp only
    omega

/-- The loop waits for room: the writer makes room, or is gone. -/
theorem advances_sending (h : s.Winding) {frame : Frame}
    (hSending : s.core.dispatch = .sending frame) :
    s.Advances := by
  have hLoop : s.core.dispatch.looping := by simp [hSending, looping]
  cases hAlive : s.core.pipe.alive with
  | false =>
    refine ⟨.sendFailed, s.fail .closedWriter, rfl, ?_, ?_⟩
    · simp [step, sendFailed, hSending, hAlive, fail]
    · exact remaining_returned rfl rfl rfl (by simp [hSending, isReturned])
  | true =>
    by_cases hRoom : s.core.pipe.control.length < s.core.pipe.controlCapacity
    · -- one frame more for the writer, one less for the loop
      have hPush : s.core.pipe.pushControl ⟨none, frame⟩ = some { s.core.pipe with
          control := s.core.pipe.control ++ [⟨none, frame⟩]
          sentControl := s.core.pipe.sentControl ++ [⟨none, frame⟩] } :=
        if_pos ⟨hAlive, hRoom⟩
      obtain ⟨s', hSent, hRemaining⟩ : ∃ s', s.sent = some s' ∧ s'.remaining < s.remaining := by
        simp only [sent, Core.sent, hSending, hPush, map_some]
        refine ⟨_, rfl, ?_⟩
        have hWork : work { s.core.pipe with
            control := s.core.pipe.control ++ [⟨none, frame⟩]
            sentControl := s.core.pipe.sentControl ++ [⟨none, frame⟩] } =
            s.core.pipe.work + 10 := by
          simp only [work, rank, length_append, length_singleton]
          omega
        split
        · split
          · simp only [remaining, hSending, hWork]
            omega
          · simp only [remaining, fail, Core.fail, hSending, hWork]
            omega
        · simp only [remaining, hSending, hWork]
          omega
      exact ⟨.sent, s', rfl, hSent, hRemaining⟩
    · refine advances_writer h hAlive (.inr ⟨?_, h.control hLoop⟩)
      have hCapacity := h.capacity
      exact length_pos_iff.mp (by omega)

/-- After the loop only the writer is waited for, and without streams nobody can send. -/
theorem advances_awaitWriter (h : s.Winding) (hIdle : ¬s.streaming)
    (hAwait : s.core.dispatch = .awaitWriter) : s.Advances := by
  cases hAlive : s.core.pipe.alive with
  | true =>
    refine advances_writer h hAlive (.inl ?_)
    simp only [disconnected, hAwait, holdsSenders, Bool.not_false, Bool.true_and,
      List.all_eq_true, Bool.not_eq_true']
    intro t ht
    cases hRuns : t.running with
    | false => rfl
    | true => exact absurd ⟨t, ht, hRuns⟩ hIdle
  | false =>
    obtain ⟨ok, hDone⟩ : ∃ ok, s.core.pipe.phase = .done ok := by
      unfold alive at hAlive
      split at hAlive
      · rename_i ok hDone
        exact ⟨ok, hDone⟩
      · cases hAlive
    obtain ⟨core, hReturn, hPipe, hEvents, error, hDispatch⟩ : ∃ core,
        s.core.returnWith .completed = some core ∧ core.pipe = s.core.pipe ∧
          core.events = s.core.events ∧ ∃ error, core.dispatch = .returned error .completed := by
      simp only [returnWith, writerDone, hDone, map_some]
      exact ⟨_, rfl, rfl, rfl, _, rfl⟩
    refine ⟨.writerJoined, { s with core }, rfl, ?_, ?_⟩
    · simp [step, hAwait, hReturn]
    · exact remaining_returned hPipe hEvents hDispatch (by simp [hAwait, isReturned])

/-- A step of the loop that ends it has taken a command or an event. -/
theorem remaining_endLoop {commands : List SessionCommand} {draining : Bool}
    (hSelect : s.core.dispatch = .select) (hSide : core.side = .edge)
    (hPipe : core.pipe = s.core.pipe)
    (hLess : commands.length + core.events.length < s.commands.length + s.core.events.length) :
    remaining (endLoop { s with core, commands, draining }) < s.remaining := by
  have hAwait := looping_endLoop (s := { s with core, commands, draining }) hSide
  simp only [remaining, hAwait, hSelect]
  simp only [endLoop, Core.endLoop, hPipe]
  omega

theorem advances_command (hSide : s.core.side = .edge) (hSelect : s.core.dispatch = .select)
    {command : SessionCommand} {rest : List SessionCommand}
    (hCommands : s.commands = command :: rest) : s.Advances := by
  have hStep : s.step .command = some (runCommand { s with commands := rest } command) := by
    simp [step, EdgeSession.command, hSelect, hCommands]
  refine ⟨.command, _, rfl, hStep, ?_⟩
  have hLess : rest.length + s.core.events.length < s.commands.length + s.core.events.length := by
    rw [hCommands, length_cons]
    omega
  cases command with
  | «open» =>
    obtain ⟨-, hRest, hDispatch, hEvents, hPipe⟩ := openCommand_eq { s with commands := rest }
    simp only [runCommand, remaining, hRest, hDispatch, hEvents, hPipe, hSelect]
    omega
  | beginDrain =>
    simp only [runCommand]
    split
    · exact remaining_endLoop hSelect hSide rfl hLess
    · simp only [remaining, hSelect]
      omega
  | revokeAuthorization => exact remaining_endLoop hSelect hSide rfl hLess

theorem advances_event (hSide : s.core.side = .edge) (hSelect : s.core.dispatch = .select)
    {streamId : StreamId} {rest : List StreamId} (hEvents : s.core.events = streamId :: rest) :
    s.Advances := by
  have hStep : s.step .event = some (drainedLoop { s with
      core := removeStream { s.core with events := rest } streamId }) := by
    simp [step, closedEvent, hSelect, hEvents]
  refine ⟨.event, _, rfl, hStep, ?_⟩
  have hLess : s.commands.length + rest.length < s.commands.length + s.core.events.length := by
    rw [hEvents, length_cons]
    omega
  unfold drainedLoop
  split
  · exact remaining_endLoop hSelect hSide rfl hLess
  · simp only [remaining, removeStream, hSelect]
    omega

/-- **A session that has been told to drain and has no running stream is not stuck.** -/
theorem Winding.advances (h : s.Winding) (hTold : s.Told) (hIdle : ¬s.streaming)
    (hNot : s.core.dispatch.isReturned = false) : s.Advances := by
  cases hDispatch : s.core.dispatch with
  | select =>
    have hLoop : s.core.dispatch.looping := by simp [hDispatch, looping]
    rcases hTold with hQueued | hDraining | hOver
    · obtain ⟨_, _, hCommands⟩ := exists_cons_of_ne_nil (ne_nil_of_mem hQueued)
      exact advances_command h.side hDispatch hCommands
    · rcases h.drains hLoop hDraining with hStreaming | hEvents
      · exact absurd hStreaming hIdle
      · obtain ⟨_, _, hEvents⟩ := exists_cons_of_ne_nil hEvents
        exact advances_event h.side hDispatch hEvents
    · simp [hOver] at hLoop
  | sending => exact advances_sending h hDispatch
  | joining => exact absurd hDispatch h.joining
  | awaitWriter => exact advances_awaitWriter h hIdle hDispatch
  | returned => simp [hDispatch, isReturned] at hNot

/-- **A session that was given `BeginDrain` returns by its own steps**, whatever happened
before and after, unless a stream is still running. -/
theorem returns_of_told {limits : SessionLimits} {commandCapacity : Nat}
    {before after : List EdgeAction}
    (hRun : exec step (new limits commandCapacity)
      (before ++ .enqueue .beginDrain :: after) = some s) :
    ∃ steps s', (∀ a ∈ steps, own a = true) ∧ exec step s steps = some s' ∧
      (s'.core.dispatch.isReturned = true ∨ s'.streaming) := by
  have hWinding : s.Winding :=
    exec_induction (fun _ _ _ h hStep => h.step hStep)
      (winding_new limits commandCapacity) hRun
  have hTold : s.Told := by
    obtain ⟨s₁, hBefore, hRest⟩ := exec_append.mp hRun
    obtain ⟨s₂, hEnqueue, hAfter⟩ := exec_cons_eq_some.mp hRest
    have hWinding₁ : s₁.Winding := exec_induction (fun _ _ _ h hStep => h.step hStep)
      (winding_new limits commandCapacity) hBefore
    have hTold₂ : s₂.Told := by
      simp only [step] at hEnqueue
      split_ifs at hEnqueue
      cases hEnqueue
      exact .inl (by simp)
    exact (exec_induction (P := fun s => s.Winding ∧ s.Told)
      (fun _ _ _ h hStep => ⟨h.1.step hStep, h.2.step h.1.side hStep⟩)
      ⟨hWinding₁.step hEnqueue, hTold₂⟩ hAfter).2
  refine exec_progress (P := fun s => s.Winding ∧ s.Told) remaining ?_ ⟨hWinding, hTold⟩
  rintro s ⟨h, hTold⟩
  by_cases hGoal : s.core.dispatch.isReturned = true ∨ s.streaming
  · exact .inl hGoal
  · have hNot : s.core.dispatch.isReturned = false := by
      simpa using fun hReturned => hGoal (.inl hReturned)
    obtain ⟨a, s', hOwn, hStep, hLess⟩ := h.advances hTold (fun hIdle => hGoal (.inr hIdle)) hNot
    exact .inr ⟨a, s', hOwn, hStep, ⟨h.step hStep, hTold.step h.side hStep⟩, hLess⟩

end EdgeSession

end TunnelProxy.Mux
