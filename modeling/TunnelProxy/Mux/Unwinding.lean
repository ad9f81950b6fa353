import TunnelProxy.Mux.Draining
import TunnelProxy.Mux.Writing

/-!
# How a session unwinds

When the dispatch loop has left, the stream tasks and the writer go on without it. This module
collects what brings them to their end, for either side:

* `Core.PipeOk` — in every reachable state the writer's queues are within their bounds, and the
  writer takes them for closed only when the last sender is gone.
* `StreamTask.rank` — each `await` of a task that completes without new input brings the task
  closer to its end.
* `Core.effort` — tasks and writer together: a running task that waits for room on a queue either
  gets it, or the writer has a frame to write (`Core.pushes_or_writes`).
-/

namespace TunnelProxy.Mux

open Protocol Common Std Pipeline StreamTask List

/-! ## The writer's queues in a session -/

namespace Pipeline

variable {p p' : Pipeline}

/-- As long as a sender is left, both queues are open. -/
theorem Shut.isOpen (h : p.Shut false false) : p.controlOpen = true ∧ p.dataOpen = true := by
  constructor
  · by_contra hClosed
    exact Bool.noConfusion (h.control (by simpa using hClosed)).1
  · by_contra hClosed
    exact Bool.noConfusion (h.data (by simpa using hClosed)).1

/-- Frames that are added while a sender is left do not matter, nor that the sender goes. -/
theorem Shut.added (h : p.Shut false false) (control sentControl data sentData : List Outbound)
    (gone : Bool) : Shut { p with control, sentControl, data, sentData } gone gone where
  control hClosed := by
    rw [h.isOpen.1] at hClosed
    cases hClosed
  data hClosed := by
    rw [h.isOpen.2] at hClosed
    cases hClosed
  ends := h.ends
  waits := h.waits

theorem Shut.depart {gone : Bool} (h : p.Shut gone gone) (n : Nat) : (p.depart n).Shut gone gone :=
  { h with }

/-- The bounds of the data queue. -/
structure Bounds (p : Pipeline) : Prop where
  permits : p.permitsUsed ≤ p.dataCapacity
  scheduled : p.scheduled.capacity = p.dataCapacity

theorem Bounds.room (h : p.Bounds) (hData : p.data ≠ []) :
    p.scheduled.len < p.scheduled.capacity := by
  have hLen : 0 < p.data.length := length_pos_iff.mpr hData
  have hQueued := p.queued_le_permitsUsed
  have hPermits := h.permits
  rw [h.scheduled]
  omega

theorem Bounds.step {gone : Bool} {a : WriterAction} (h : p.Bounds)
    (hStep : p.step gone a = some p') : p'.Bounds ∧ p'.dataCapacity = p.dataCapacity := by
  obtain ⟨hPermits, hCapacity, hScheduled⟩ := (step_effect hStep).permits h.scheduled
  exact ⟨⟨hCapacity ▸ hPermits.trans h.permits, hScheduled.trans hCapacity.symm⟩, hCapacity⟩

theorem Bounds.pushData {o : Outbound} (h : p.Bounds) (hPush : p.pushData o = some p') :
    p'.Bounds := by
  unfold Pipeline.pushData at hPush
  split_ifs at hPush with hRoom
  cases hPush
  have hUsed : permitsUsed
      { p with data := p.data ++ [o], sentData := p.sentData ++ [o] } = p.permitsUsed + 1 := by
    simp only [permitsUsed, length_append, length_singleton]
    omega
  refine ⟨?_, h.scheduled⟩
  rw [hUsed]
  exact hRoom.2

end Pipeline

namespace Core

variable {c c' : Core} {next next' : UInt32} {turn : Turn}

/-- A session whose last sender is gone keeps none, and only the writer and the transport
touch the pipeline. -/
theorem SessionEffect.of_disconnected (h : SessionEffect c turn next next' c')
    (hGone : c.disconnected = true) :
    c'.disconnected = true ∧ (c'.pipe = c.pipe ∨ (∃ a, c.pipe.step true a = some c'.pipe) ∨
      ∃ n, c'.pipe = c.pipe.depart n) := by
  -- nothing is left that could take a step of its own
  have hSelect : c.dispatch ≠ .select := fun hEq =>
    not_disconnected_of_holds (by rw [hEq]; rfl) hGone
  have hNoTask : ∀ {i : Nat} {t : StreamTask}, c.tasks[i]? = some t → ¬ t.running := by
    intro _ _ hTask hRuns
    exact not_disconnected_of_running hTask hRuns hGone
  cases h with
  | core a _ _ hStep =>
    cases step_effect hStep with
    | task i t t' e hTask hEvent | control i t t' frame pipe hTask hEvent
    | data i t t' frame pipe hTask hEvent | closed i t t' hTask hEvent =>
      exact absurd (running_of_step hEvent) (hNoTask hTask)
    | abort _ _ hTask hRuns => exact absurd hRuns (hNoTask hTask)
    | writer a _ hWrite =>
      rw [hGone] at hWrite
      exact ⟨hGone, .inr (.inl ⟨a, hWrite⟩)⟩
    | arrive | arriveEof => exact ⟨hGone, .inl rfl⟩
    | depart n => exact ⟨hGone, .inr (.inr ⟨n, rfl⟩)⟩
  | same => exact ⟨hGone, .inl rfl⟩
  | read _ _ _ _ _ hRead => exact absurd (read_eq hRead).1 hSelect
  | spawn hSide hDispatch' | event streamId rest hTurn hDispatch' | ping reply hDispatch' =>
    exact absurd hDispatch' hSelect
  | sent _ _ hSending =>
    exact absurd hGone (not_disconnected_of_holds (by rw [hSending]; rfl))
  | stop _ hStop => exact ⟨disconnected_of_stops hStop hGone, .inl hStop.pipe⟩

/-- The step that ends the loop clears the map and leaves the tasks as they are. The last
thing the loop may have done is to send a frame. -/
theorem SessionEffect.leaves (h : SessionEffect c turn next next' c') (hLoop : c.dispatch.looping)
    (hLeft : c'.dispatch.looping = false) :
    c'.streams = ∅ ∧ c'.tasks = c.tasks ∧ c'.limits = c.limits ∧
      c'.events.length ≤ c.events.length ∧
      (c'.pipe = c.pipe ∨ ∃ frame, c.dispatch = .sending frame ∧
        c.pipe.pushControl ⟨none, frame⟩ = some c'.pipe) := by
  have hCleared : ∀ c₁ : Core, c₁.dispatch.looping → Stops c₁ c' → c'.streams = ∅ := by
    intro _ hLoop₁ hStop
    rcases hStop.streams with hEmpty | ⟨-, hLeft₁⟩
    · exact hEmpty
    · rw [hLoop₁] at hLeft₁
      cases hLeft₁
  -- what leaves the loop stops: all other effects keep it looping
  have hContra : c'.dispatch.looping → False := by
    rw [hLeft]
    exact Bool.noConfusion
  cases h with
  | core _ _ _ hStep =>
    exact absurd ((step_effect hStep).outside.dispatch ▸ hLoop) hContra
  | same => exact absurd hLoop hContra
  | read _ _ _ _ _ hRead hHandled =>
    obtain ⟨hSelect, -, -, -, rfl⟩ := read_eq hRead
    cases hHandled with
    | incomplete | keep => exact absurd hLoop hContra
    | send => exact absurd rfl hContra
    | stop _ _ hStop =>
      exact ⟨hCleared _ (by simp [hSelect, Dispatch.looping]) hStop, hStop.tasks, hStop.limits,
        hStop.events ▸ Nat.le_refl _, .inl hStop.pipe⟩
    | forward frame _ _ hForward =>
      exfalso
      have hAnswer : ∀ next, Answers c frame next → next.looping := by
        rintro next (rfl | ⟨reply, rfl, -⟩)
        · exact hLoop
        · rfl
      cases hForward with
      | delivered => exact hContra hLoop
      | removed next hNext | ignored next hNext => exact hContra (hAnswer next hNext)
    | spawn =>
      exfalso
      apply hContra
      unfold Core.spawn
      split <;> exact hLoop
  | spawn =>
    exfalso
    apply hContra
    unfold Core.spawn
    split <;> exact hLoop
  | event streamId rest _ _ hEvents _ hNext =>
    rcases hNext with rfl | hStop
    · exact absurd hLoop hContra
    · refine ⟨hCleared (removeStream { c with events := rest } streamId) hLoop hStop, hStop.tasks,
        hStop.limits, ?_, .inl hStop.pipe⟩
      rw [hStop.events, hEvents]
      exact Nat.le_succ _
  | ping => exact absurd rfl hContra
  | sent frame pipe hSending hPush _ hNext =>
    rcases hNext with rfl | hStop
    · exact absurd rfl hContra
    · exact ⟨hCleared _ rfl hStop, hStop.tasks, hStop.limits, hStop.events ▸ Nat.le_refl _,
        .inr ⟨frame, hSending, hStop.pipe ▸ hPush⟩⟩
  | stop _ hStop =>
    exact ⟨hCleared _ hLoop hStop, hStop.tasks, hStop.limits, hStop.events ▸ Nat.le_refl _,
      .inl hStop.pipe⟩

/-- Once the loop has ended, the map stays empty. -/
theorem streams_step (h : SessionEffect c turn next next' c')
    (hEmpty : c.dispatch.looping = false → c.streams = ∅) (hLeft : c'.dispatch.looping = false) :
    c'.streams = ∅ := by
  by_cases hLoop : c.dispatch.looping = true
  · exact (h.leaves hLoop hLeft).1
  · have hBefore := hEmpty (by simpa using hLoop)
    have hSelect : c.dispatch ≠ .select := fun hEq => hLoop (by rw [hEq]; rfl)
    cases h with
    | core _ _ _ hStep => exact (step_effect hStep).outside.streams.trans hBefore
    | same => exact hBefore
    | read _ _ _ _ _ hRead => exact absurd (read_eq hRead).1 hSelect
    | spawn hSide hDispatch | event streamId rest hTurn hDispatch | ping reply hDispatch =>
      exact absurd hDispatch hSelect
    | sent _ _ hSending => exact absurd (by rw [hSending]; rfl) hLoop
    | stop _ hStop =>
      rcases hStop.streams with hStreams | ⟨hStreams, -⟩
      · exact hStreams
      · exact hStreams.trans hBefore

/-- What every reachable state of a session has of its pipeline. -/
structure PipeOk (c : Core) : Prop where
  ready : c.pipe.Ready
  bounds : c.pipe.Bounds
  shut : c.pipe.Shut c.disconnected c.disconnected
  controlCapacity : c.pipe.controlCapacity = c.limits.controlQueue
  dataCapacity : c.pipe.dataCapacity = c.limits.dataQueue

theorem pipeOk_new (side : Side) (limits : SessionLimits) : (new side limits).PipeOk where
  ready := ready_new _ _
  bounds := ⟨Nat.zero_le _, rfl⟩
  shut := by constructor <;> simp [new, Pipeline.new]
  controlCapacity := rfl
  dataCapacity := rfl

theorem PipeOk.bounds_step (h : c.PipeOk) (hEffect : SessionEffect c turn next next' c') :
    c'.pipe.Bounds ∧ c'.pipe.dataCapacity = c.pipe.dataCapacity := by
  refine hEffect.pipe_induction
    (P := fun pipe => pipe.Bounds ∧ pipe.dataCapacity = c.pipe.dataCapacity) ?_ ?_
    (fun _ _ hStep => h.bounds.step hStep) ?_ ⟨h.bounds, rfl⟩
  · intro _ _ hPush
    obtain ⟨-, rfl⟩ := pushControl_eq hPush
    exact ⟨⟨h.bounds.permits, h.bounds.scheduled⟩, rfl⟩
  · intro _ _ hPush
    refine ⟨h.bounds.pushData hPush, ?_⟩
    obtain ⟨-, rfl⟩ := pushData_eq hPush
    rfl
  · exact fun n => ⟨⟨h.bounds.permits, h.bounds.scheduled⟩, rfl⟩

theorem PipeOk.shut_step (h : c.PipeOk) (hEffect : SessionEffect c turn next next' c') :
    c'.pipe.Shut c'.disconnected c'.disconnected := by
  have hRoom := fun hData => h.bounds.room hData
  by_cases hGone : c.disconnected = true
  · obtain ⟨hStill, hPipe⟩ := hEffect.of_disconnected hGone
    have hShut := h.shut
    rw [hGone] at hShut
    rw [hStill]
    rcases hPipe with hSame | ⟨a, hStep⟩ | ⟨n, hDepart⟩
    · rw [hSame]
      exact hShut
    · exact (hShut.stepWith hRoom ((stepWith_same _ _ a).trans hStep)).1
    · rw [hDepart]
      exact hShut.depart n
  · -- a sender is left, so that both queues are still open after the step
    have hLeft : c.disconnected = false := by simpa using hGone
    have hShut := h.shut
    rw [hLeft] at hShut
    have hNext : c'.pipe.Shut false false := by
      refine hEffect.pipe_induction (P := fun pipe => pipe.Shut false false) ?_ ?_ ?_
        (fun n => hShut.depart n) hShut
      · intro _ _ hPush
        obtain ⟨-, rfl⟩ := pushControl_eq hPush
        exact hShut.added _ _ _ _ _
      · intro _ _ hPush
        obtain ⟨-, rfl⟩ := pushData_eq hPush
        exact hShut.added _ _ _ _ _
      · intro a _ hStep
        rw [hLeft] at hStep
        exact (hShut.stepWith hRoom ((stepWith_same _ _ a).trans hStep)).1
    exact hNext.added _ _ _ _ _

/-- **Every step of a session keeps its pipeline in order.** -/
theorem PipeOk.step (h : c.PipeOk) (hEffect : SessionEffect c turn next next' c') : c'.PipeOk where
  ready := ready_step h.ready hEffect
  bounds := (h.bounds_step hEffect).1
  shut := h.shut_step hEffect
  controlCapacity := by
    rw [controlCapacity_step hEffect, hEffect.fixed.2]
    exact h.controlCapacity
  dataCapacity := by
    rw [(h.bounds_step hEffect).2, hEffect.fixed.2]
    exact h.dataCapacity

end Core

/-! ## A stream task comes closer to its end -/

namespace StreamTask

variable {t t' : StreamTask}

/-- How far the task is from its end when nothing new is read from its socket. A frame of the
inbound queue costs at most a write and a return to the relay loop. -/
def rank (t : StreamTask) : Nat :=
  match t.phase with
  | .ended => 0
  | .closing => 1
  | .sendReset _ => 2
  | .awaitOpen | .connecting | .relay => 4 + 4 * t.inbound.length
  | _ => 5 + 4 * t.inbound.length

@[simp] theorem rank_finish (t : StreamTask) : t.finish.rank = 1 := rfl

@[simp] theorem rank_close (t : StreamTask) (reason : RoutedStreamCloseReason) :
    (t.close reason).rank = 1 := rfl

@[simp] theorem rank_reset (t : StreamTask) (code : StreamResetCode)
    (reason : RoutedStreamCloseReason) : (t.reset code reason).rank = 2 := rfl

@[simp] theorem rank_drop (t : StreamTask) : t.drop.rank = 0 := rfl

theorem rank_loopTop_le (t : StreamTask) : t.loopTop.rank ≤ 4 + 4 * t.inbound.length := by
  unfold loopTop
  split
  · rw [rank_finish]
    omega
  · exact Nat.le_refl _

theorem rank_recv (h : t.step .recv = some t') : t'.rank < t.rank := by
  cases hInbound : t.inbound with
  | nil => simp [step, hInbound] at h
  | cons frame rest =>
    simp only [step, hInbound] at h
    obtain ⟨hTaking, hEffect⟩ := onFrame_effect h
    have hRank : t.rank = 8 + 4 * rest.length := by
      rcases hTaking with hPhase | hPhase | hPhase <;>
        · simp only [rank, show t.phase = _ from hPhase, hInbound, length_cons]
          omega
    rw [hRank]
    cases hEffect with
    | opened =>
      show 4 + 4 * rest.length < _
      omega
    | closed =>
      rw [rank_close]
      omega
    | reset =>
      rw [rank_reset]
      omega
    | empty => exact Nat.lt_of_le_of_lt (rank_loopTop_le _) (by dsimp only; omega)
    | writes | ended =>
      show 5 + 4 * rest.length < _
      omega

theorem rank_sent (h : t.step .sent = some t') : t'.rank < t.rank := by
  simp only [step, onSent] at h
  split at h <;> rename_i hPhase <;> cases h <;> simp only [rank, hPhase]
  · omega
  · omega
  · rename_i frame
    have hTop : ({ t with sentData := t.sentData ++ [frame] } : StreamTask).loopTop.rank ≤
        4 + 4 * t.inbound.length := rank_loopTop_le _
    exact Nat.lt_of_le_of_lt hTop (by omega)
  · exact Nat.one_lt_two
  · exact Nat.one_pos

theorem rank_sendFailed (h : t.step .sendFailed = some t') : t'.rank < t.rank := by
  simp only [step, onSendFailed] at h
  split at h <;> rename_i hPhase <;> cases h <;> simp only [rank, hPhase, close, finish, drop] <;>
    omega

/-- A task that waits for a queue goes on when the queue takes its item, and when the queue
is gone. -/
theorem sends_of_pending {send : Send} (h : t.pendingSend = some send) :
    (∃ t', t.step .sent = some t') ∧ ∃ t', t.step .sendFailed = some t' := by
  cases hPhase : t.phase <;> simp only [pendingSend, hPhase, reduceCtorEq] at h
  all_goals
    simp only [step, onSent, onSendFailed, hPhase]
    exact ⟨⟨_, rfl⟩, ⟨_, rfl⟩⟩

/-- The events by which a task gets on with what it has. -/
def proceeds : TaskEvent → Bool
  | .sent | .sendFailed | .recv | .recvClosed | .shutdownOk | .wrote _ => true
  | _ => false

/-- **A running task waits for a queue, or can go on by itself.** Only a task that writes to
its socket needs whoever reads there. -/
theorem advances (h : t.running) (hWriting : ∀ rest, t.phase = .writing rest → rest ≠ []) :
    (∃ send, t.pendingSend = some send) ∨
      ∃ e t', proceeds e = true ∧ e ≠ .sent ∧ e ≠ .sendFailed ∧ t.step e = some t' ∧
        t'.rank < t.rank := by
  have hTop := rank_loopTop_le t
  -- a task that waits for frames takes one, or finds the channel closed
  have hRecv : t.phase = .awaitOpen ∨ t.phase = .connecting ∨ t.phase = .relay →
      ∃ e t', proceeds e = true ∧ e ≠ .sent ∧ e ≠ .sendFailed ∧ t.step e = some t' ∧
        t'.rank < t.rank := by
    intro hPhase
    cases hInbound : t.inbound with
    | nil =>
      rcases hPhase with hPhase | hPhase | hPhase <;>
        exact ⟨.recvClosed, _, rfl, by simp, by simp,
          by simp [step, hInbound, onClosed, hPhase]; rfl,
          by simp [rank, hPhase, close, finish, hInbound]⟩
    | cons =>
      obtain ⟨t', hStep⟩ : ∃ t', t.step .recv = some t' := by
        simp only [step, hInbound, onFrame]
        rcases hPhase with hPhase | hPhase | hPhase <;> rw [hPhase] <;> exact ⟨_, rfl⟩
      exact ⟨.recv, t', rfl, by simp, by simp, hStep, rank_recv hStep⟩
  cases hPhase : t.phase with
  | sendOpen | sendAck | sendData | sendReset | closing =>
    refine .inl ?_
    simp only [pendingSend, hPhase]
    exact ⟨_, rfl⟩
  | awaitOpen => exact .inr (hRecv (.inl hPhase))
  | connecting => exact .inr (hRecv (.inr (.inl hPhase)))
  | relay => exact .inr (hRecv (.inr (.inr hPhase)))
  | writing rest =>
    have hRest := hWriting rest hPhase
    have hLen : 0 < rest.length := length_pos_iff.mpr hRest
    have hTop' : ({ t with socketWritten := t.socketWritten ++ rest.take rest.length } :
        StreamTask).loopTop.rank ≤ 4 + 4 * t.inbound.length := rank_loopTop_le _
    refine .inr ⟨.wrote rest.length,
      loopTop { t with socketWritten := t.socketWritten ++ rest.take rest.length },
      rfl, by simp, by simp, by simp [step, onWrote, hPhase, hLen], ?_⟩
    have hRank : t.rank = 5 + 4 * t.inbound.length := by simp only [rank, hPhase]
    omega
  | shuttingDown =>
    refine .inr ⟨.shutdownOk, t.loopTop, rfl, by simp, by simp, by simp [step, hPhase], ?_⟩
    have hRank : t.rank = 5 + 4 * t.inbound.length := by simp only [rank, hPhase]
    omega
  | ended => simp [running, hPhase] at h

end StreamTask

/-! ## Tasks and writer together -/

namespace Pipeline

variable {p p' : Pipeline}

/-- More frames, or fewer senders, do not make the `select!` wait longer. -/
theorem patience_le (hPhase : p'.phase = p.phase) (hOpen : p'.controlOpen = p.controlOpen)
    (hControl : p'.control = [] → p.control = []) (gone : Bool) :
    p'.patience gone ≤ p.patience false := by
  unfold patience
  by_cases hWaits : p'.phase = .select ∧ p'.controlOpen = true ∧ p'.control = [] ∧ gone = false
  · have hBefore : p.phase = .select ∧ p.controlOpen = true ∧ p.control = [] ∧ false = false :=
      ⟨hPhase ▸ hWaits.1, hOpen ▸ hWaits.2.1, hControl hWaits.2.2.1, rfl⟩
    rw [if_pos hBefore]
    split <;> omega
  · rw [if_neg hWaits]
    exact Nat.zero_le _

end Pipeline

namespace Core

variable {c c' : Core} {i : Nat} {t t' : StreamTask}

/-- What tasks and writer still have to do. A step of a task costs the writer at most one data
frame, which it moves twice. -/
def effort (c : Core) : Nat :=
  40 * (c.tasks.map StreamTask.rank).sum + c.pipe.work + c.pipe.patience c.disconnected

theorem effort_task (hTask : c.tasks[i]? = some t) (hRuns : t.running)
    (hRank : t'.rank < t.rank) (hTasks : c'.tasks = c.tasks.set i t')
    (hWork : c'.pipe.work ≤ c.pipe.work + 20)
    (hPatience : c'.pipe.patience c'.disconnected ≤ c.pipe.patience false) :
    c'.effort < c.effort := by
  have hSum := IndexMap.sum_map_set (f := StreamTask.rank) t' hTask
  unfold effort
  rw [hTasks, Bool.eq_false_iff.mpr (not_disconnected_of_running hTask hRuns)]
  omega

theorem effort_setTask (hTask : c.tasks[i]? = some t) (hRuns : t.running)
    (hRank : t'.rank < t.rank) : (c.setTask i t').effort < c.effort :=
  effort_task hTask hRuns hRank rfl (Nat.le_add_right _ _)
    (patience_le rfl rfl (fun h => h) _)

/-- The writer has something to do. -/
def writes (c : Core) : Prop := c.pipe.alive = true ∧ ¬ c.pipe.Idle c.disconnected c.disconnected

theorem PipeOk.writer_advances (h : c.PipeOk) (hWrites : c.writes) :
    ∃ a c', WriterAction.succeeds a = true ∧ c.step (.writer a) = some c' ∧
      c'.effort < c.effort := by
  obtain ⟨a, pipe, hSucceeds, hStep, _⟩ :=
    advancesWith h.ready h.shut hWrites.1 hWrites.2
  rw [stepWith_same] at hStep
  refine ⟨a, { c with pipe }, hSucceeds, by rw [Core.step, hStep]; rfl, ?_⟩
  show 40 * (c.tasks.map StreamTask.rank).sum + pipe.work + pipe.patience c.disconnected < _
  unfold effort
  omega

theorem PipeOk.control_room (h : c.PipeOk) (hAlive : c.pipe.alive = true)
    (hQuiet : ¬ c.writes) (o : Outbound) : ∃ pipe, c.pipe.pushControl o = some pipe := by
  refine ⟨_, if_pos ⟨hAlive, ?_⟩⟩
  have hIdle : c.pipe.Idle c.disconnected c.disconnected := by
    by_contra hBusy
    exact hQuiet ⟨hAlive, hBusy⟩
  rw [hIdle.2.1, h.controlCapacity]
  exact c.limits.controlQueue_pos

theorem PipeOk.data_room (h : c.PipeOk) (hAlive : c.pipe.alive = true)
    (hQuiet : ¬ c.writes) (o : Outbound) : ∃ pipe, c.pipe.pushData o = some pipe := by
  refine ⟨_, if_pos ⟨hAlive, ?_⟩⟩
  have hIdle : c.pipe.Idle c.disconnected c.disconnected := by
    by_contra hBusy
    exact hQuiet ⟨hAlive, hBusy⟩
  have hScheduled := h.shut.waits (.inr hIdle.1)
  have hUsed : c.pipe.permitsUsed = 0 := by
    rw [permitsUsed_of_between (by simp [between, hIdle.1]), hIdle.2.2.1,
      hScheduled]
    rfl
  rw [hUsed, h.dataCapacity]
  exact c.limits.dataQueue_pos

/-- **A task that waits for a queue gets there**, or the writer has to make room first. Room for
`Closed` is made by nobody once the loop has ended. -/
theorem pushes_or_writes {send : Send} (hOk : c.PipeOk)
    (hTask : c.tasks[i]? = some t) (hSend : t.pendingSend = some send)
    (hRoom : t.phase = .closing →
      c.dispatch.isReturned = true ∨ c.events.length < c.limits.maxStreams) :
    (∃ e c', proceeds e = true ∧ c.step (.task i e) = some c' ∧
      c'.effort < c.effort) ∨ c.writes := by
  by_cases hQuiet : c.writes
  · exact .inr hQuiet
  obtain ⟨⟨sent, hSent⟩, ⟨failed, hFailed⟩⟩ := sends_of_pending hSend
  have hRuns := running_of_step hSent
  refine .inl ?_
  -- with the queue gone, or the session returned, the task is told so
  have hGone : c.taskSendFailed i t = some (c.setTask i failed) →
      ∃ e c', proceeds e = true ∧ c.step (.task i e) = some c' ∧
        c'.effort < c.effort := by
    intro hStep
    exact ⟨.sendFailed, _, rfl, by simp only [step, taskStep, hTask, Option.bind_some, hStep],
      effort_setTask hTask hRuns (rank_sendFailed hFailed)⟩
  cases send with
  | control frame =>
    by_cases hAlive : c.pipe.alive = true
    · obtain ⟨pipe, hPush⟩ := hOk.control_room hAlive hQuiet ⟨some i, frame⟩
      refine ⟨.sent, { c.setTask i sent with pipe }, rfl, ?_, ?_⟩
      · simp [step, taskStep, hTask, taskSent, hSent, hSend, hPush]
      · obtain ⟨-, rfl⟩ := pushControl_eq hPush
        refine effort_task hTask hRuns (rank_sent hSent) rfl ?_ ?_
        · simp only [work, Pipeline.rank, length_append, length_singleton]
          omega
        · apply patience_le <;> simp
    · exact hGone (by simp [taskSendFailed, hFailed, hSend, hAlive])
  | data frame =>
    by_cases hAlive : c.pipe.alive = true
    · obtain ⟨pipe, hPush⟩ := hOk.data_room hAlive hQuiet ⟨some i, frame⟩
      refine ⟨.sent, { c.setTask i sent with pipe }, rfl, ?_, ?_⟩
      · simp [step, taskStep, hTask, taskSent, hSent, hSend, hPush]
      · obtain ⟨-, rfl⟩ := pushData_eq hPush
        refine effort_task hTask hRuns (rank_sent hSent) rfl ?_ ?_
        · simp only [work, Pipeline.rank, length_append, length_singleton]
          omega
        · apply patience_le <;> simp
    · exact hGone (by simp [taskSendFailed, hFailed, hSend, hAlive])
  | closed =>
    have hPhase : t.phase = .closing := by
      cases hPhase : t.phase <;> simp [pendingSend, hPhase] at hSend
      rfl
    by_cases hReturned : c.dispatch.isReturned = true
    · exact hGone (by simp [taskSendFailed, hFailed, hSend, hReturned])
    · have hSpace := (hRoom hPhase).resolve_left hReturned
      refine ⟨.sent, { c.setTask i sent with events := c.events ++ [t.id] }, rfl, ?_, ?_⟩
      · simp [step, taskStep, hTask, taskSent, hSent, hSend, hReturned, hSpace]
      · exact effort_task hTask hRuns (rank_sent hSent) rfl (Nat.le_add_right _ _)
          (patience_le rfl rfl (fun h => h) _)

/-- **A running task comes closer to its end**, or the writer does. -/
theorem task_advances (hOk : c.PipeOk) (hStreams : c.streams = ∅) (hTask : c.tasks[i]? = some t)
    (hRuns : t.running) (hWriting : ∀ rest, t.phase = .writing rest → rest ≠ [])
    (hRoom : t.phase = .closing →
      c.dispatch.isReturned = true ∨ c.events.length < c.limits.maxStreams) :
    (∃ e c', proceeds e = true ∧ c.step (.task i e) = some c' ∧
      c'.effort < c.effort) ∨ c.writes := by
  rcases advances hRuns hWriting with ⟨_, hSend⟩ | ⟨e, t', hOwn, hNe, hNe', hStep, hRank⟩
  · exact pushes_or_writes hOk hTask hSend hRoom
  · refine .inl ⟨e, c.setTask i t', hOwn, ?_, effort_setTask hTask hRuns hRank⟩
    -- the map is empty, so that `recv` may return `None`
    have hEntry : c.streams[t.id]? ≠ some i := by simp [hStreams]
    cases e with
    | sent => exact absurd rfl hNe
    | sendFailed => exact absurd rfl hNe'
    | recvClosed => simp [step, taskStep, hTask, taskRecvClosed, hEntry, hStep]
    | _ => simp [step, taskStep, hTask, hStep]

end Core

end TunnelProxy.Mux
