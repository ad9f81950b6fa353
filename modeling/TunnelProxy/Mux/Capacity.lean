import TunnelProxy.Mux.Tasks

/-!
# How many stream tasks a session runs

Both sides admit a stream by the size of the stream map. An entry is meant to stay
in the map as long as its task runs, but the flow-control arms take it out while
the task may still be blocked in a socket write, and a late `Closed` event takes
out whatever entry its id has by then.

* `Core.Tracked` — while the loop runs, every running task is in the map.
* `EdgeSession.keepsRunning` / `AgentSession.keepsRunning` — the step does not take
  the entry of a running task out of the map.
* `runningTasks_le_of_keepsRunning` — in every run of such steps the number of
  running tasks is bounded by the configured limit, on both sides.
* `runningTasks_exceeds_limit` — without the condition the bound fails, on both
  sides, with a peer that writes faster than the socket takes.
-/

namespace TunnelProxy.Mux

open Protocol Std IndexMap Transition Dispatch

namespace Core

/-- The next read completes a frame that breaks the flow control of a stream whose
task still runs. -/
def overflowsAt (c : Core) (n : Nat) : Bool :=
  match c.read n with
  | some (some (.ok frame), _) => forwards c.side frame && c.overflows frame
  | _ => false

/-- The next `Closed` event names a stream whose current task still runs. -/
def staleEvent (c : Core) : Bool :=
  match c.events with
  | streamId :: _ => c.entryRuns streamId
  | [] => false

/-! ## The invariant -/

structure Tracked (c : Core) : Prop where
  indexed : c.dispatch.looping → Indexes StreamTask.id StreamTask.running c.tasks c.streams
  size_le : c.dispatch.looping → c.streams.size ≤ c.limits.maxStreams
  running_le : c.runningTasks ≤ c.limits.maxStreams

variable {c c' : Core} {streamId : StreamId}

theorem tracked_of_indexed (hIndexed : Indexes StreamTask.id StreamTask.running c.tasks c.streams)
    (hSize : c.streams.size ≤ c.limits.maxStreams) : c.Tracked where
  indexed _ := hIndexed
  size_le _ := hSize
  running_le := hIndexed.countP_le_size.trans hSize

theorem tracked_new (side : Side) (limits : SessionLimits) : (new side limits).Tracked :=
  tracked_of_indexed (fun i t h => by simp [new] at h) (by simp [new])

theorem Effect.tracked {a : CoreAction} (hInv : c.Tracked) (h : Effect c a c') : c'.Tracked := by
  have hOut := h.outside
  rcases hOut.tasks with hTasks | ⟨_, t, t', hTask, hTasks, hRuns, hNext⟩
  · refine ⟨?_, ?_, ?_⟩
    · rw [hOut.dispatch, hTasks, hOut.streams]; exact hInv.indexed
    · rw [hOut.dispatch, hOut.streams, hOut.limits]; exact hInv.size_le
    · rw [runningTasks, hTasks, hOut.limits]; exact hInv.running_le
  · have hId : t'.id = t.id := by
      rcases hNext with rfl | ⟨_, hStep⟩
      · rfl
      · exact (StreamTask.step_fixed hStep).1
    refine ⟨?_, ?_, ?_⟩
    · rw [hOut.dispatch, hTasks, hOut.streams]
      exact fun hLoop => (hInv.indexed hLoop).set hTask hId fun _ => hRuns
    · rw [hOut.dispatch, hOut.streams, hOut.limits]; exact hInv.size_le
    · rw [runningTasks, hTasks, hOut.limits]
      exact (countP_set_le hTask fun _ => hRuns).trans hInv.running_le

theorem Stops.tracked (hRunning : c.runningTasks ≤ c.limits.maxStreams) (h : Stops c c') :
    c'.Tracked where
  indexed hLoop := by simp [h.looping] at hLoop
  size_le hLoop := by simp [h.looping] at hLoop
  running_le := by rw [runningTasks, h.tasks, h.limits]; exact hRunning

/-- The entry of a stream whose task has ended may go. -/
theorem Tracked.removeStream (hInv : c.Tracked) (hLoop : c.dispatch.looping)
    (hIdle : c.entryRuns streamId = false) (next : Dispatch) (events : List StreamId) :
    Tracked { c.removeStream streamId with dispatch := next, events := events } := by
  refine tracked_of_indexed ((hInv.indexed hLoop).erase fun i t hi ht => ?_) ?_
  · simpa [entryRuns, hi, ht] using hIdle
  · exact ExtTreeMap.size_erase_le.trans (hInv.size_le hLoop)

theorem Tracked.spawn (hInv : c.Tracked) (hLoop : c.dispatch.looping)
    (hId : streamId ≠ StreamId.control) (hFresh : c.streams[streamId]? = none)
    (hRoom : c.streams.size < c.limits.maxStreams) : (c.spawn streamId).Tracked := by
  rw [Core.spawn, dif_pos hId]
  refine tracked_of_indexed ?_ ?_
  · exact (hInv.indexed hLoop).push
      (a := StreamTask.start c.side streamId hId c.received.length) hFresh
  · exact ExtTreeMap.size_insert_le.trans hRoom

/-- **A step that keeps the running tasks in the map keeps the invariant.** -/
theorem tracked_step {turn : Turn} {next next' : UInt32} (hInv : c.Tracked)
    (h : SessionEffect c turn next next' c')
    (hFresh : c.side = .edge → next ≠ StreamId.control → c.streams[next]? = none)
    (hDecode : ∀ n, turn = .decode n → c.overflowsAt n = false)
    (hEvent : turn = .event → c.staleEvent = false) : c'.Tracked := by
  cases h with
  | core _ _ _ hStep => exact (step_effect hStep).tracked hInv
  | same => exact hInv
  | read n _ c₁ _ hn hRead hHandled =>
    have hOverflow := hDecode n hn
    obtain ⟨hSelect, -, -, -, hEq⟩ := read_eq hRead
    have hLoop : c.dispatch.looping := by simp [hSelect, looping]
    -- decoding touches neither the streams nor the tasks
    have hInv₁ : c₁.Tracked := by
      subst hEq
      exact { hInv with }
    have hLoop₁ : c₁.dispatch.looping := by
      subst hEq
      exact hLoop
    cases hHandled with
    | incomplete => exact hInv₁
    | stop _ _ hStop => exact hStop.tracked hInv₁.running_le
    | keep => exact hInv₁
    | send =>
      exact tracked_of_indexed (hInv₁.indexed hLoop₁) (hInv₁.size_le hLoop₁)
    | forward frame _ hType hForward =>
      have hNot : c₁.overflows frame = false := by
        rw [overflowsAt, hRead] at hOverflow
        subst hEq
        have hOver : c.overflows frame = false := by simpa [hType] using hOverflow
        exact hOver
      cases hForward with
      | delivered _ _ _ hTask hRuns =>
        exact tracked_of_indexed ((hInv₁.indexed hLoop₁).set hTask rfl fun _ => hRuns)
          (hInv₁.size_le hLoop₁)
      | removed next _ hWhy =>
        -- a stream whose task runs leaves the map only when the queue of the task overflows
        rcases hWhy with hOver | hIdle
        · simp [hNot] at hOver
        · exact hInv₁.removeStream hLoop₁ hIdle next c₁.events
      | ignored =>
        exact tracked_of_indexed (hInv₁.indexed hLoop₁) (hInv₁.size_le hLoop₁)
    | spawn _ _ hType hNone hRoom =>
      exact hInv₁.spawn hLoop₁ (streamId_ne_control (by rw [hType]; rfl)) hNone hRoom
  | spawn hSide hSelect hId hRoom =>
    exact hInv.spawn (by simp [hSelect, looping]) hId (hFresh hSide hId) hRoom
  | event streamId rest hEv hSelect hEvents _ hNext =>
    have hIdle : c.entryRuns streamId = false := by
      simpa [staleEvent, hEvents] using hEvent hEv
    have hKept := hInv.removeStream (by simp [hSelect, looping]) hIdle c.dispatch rest
    rcases hNext with rfl | hStop
    · exact hKept
    · exact hStop.tracked hKept.running_le
  | ping _ hSelect =>
    have hLoop : c.dispatch.looping := by simp [hSelect, looping]
    exact tracked_of_indexed (hInv.indexed hLoop) (hInv.size_le hLoop)
  | sent _ pipe hSending _ _ hNext =>
    have hLoop : c.dispatch.looping := by simp [hSending, looping]
    have hKept : Tracked { c with pipe := pipe, dispatch := .select } :=
      tracked_of_indexed (hInv.indexed hLoop) (hInv.size_le hLoop)
    rcases hNext with rfl | hStop
    · exact hKept
    · exact hStop.tracked hKept.running_le
  | stop _ hStop => exact hStop.tracked hInv.running_le

end Core

/-! ## Runs -/

/-- The step does not take the entry of a running task out of the stream map. -/
def EdgeSession.keepsRunning (s : EdgeSession) : EdgeAction → Bool
  | .decode n => !s.core.overflowsAt n
  | .event => !s.core.staleEvent
  | _ => true

@[inherit_doc EdgeSession.keepsRunning]
def AgentSession.keepsRunning (s : AgentSession) : AgentAction → Bool
  | .decode n => !s.core.overflowsAt n
  | .event => !s.core.staleEvent
  | _ => true

variable {s : EdgeSession}

/-- An Edge never reuses an id, so the next one has no entry. -/
theorem EdgeSession.Numbered.next_fresh (hNum : s.Numbered) (hTasks : s.core.TasksOk)
    (hId : s.nextStreamId ≠ StreamId.control) : s.core.streams[s.nextStreamId]? = none := by
  cases hEntry : s.core.streams[s.nextStreamId]? with
  | none => rfl
  | some i =>
    obtain ⟨t, ht, hEq⟩ := hTasks.mapped _ i hEntry
    have hNat := hNum.ids i t ht
    have hNext := hNum.next.resolve_left hId
    have hLt := (List.getElem?_eq_some_iff.mp ht).1
    rw [hEq] at hNat
    omega

theorem EdgeSession.tracked_run {limits : SessionLimits} {commandCapacity : Nat}
    {acts : List EdgeAction} (hKeeps : Guarded EdgeSession.step (fun s a => s.keepsRunning a)
      (.new limits commandCapacity) acts)
    (hRun : exec EdgeSession.step (.new limits commandCapacity) acts = some s) :
    s.core.runningTasks ≤ limits.maxStreams := by
  have hInv : s.Numbered ∧ s.core.TasksOk ∧ s.core.limits = limits ∧ s.core.Tracked := by
    refine exec_induction_guarded
      (P := fun s => s.Numbered ∧ s.core.TasksOk ∧ s.core.limits = limits ∧ s.core.Tracked)
      ?_ ?_ hKeeps hRun
    · rintro _ _ _ ⟨hNum, hTasks, hLimits, hTracked⟩ hGuard hStep
      have hEffect := step_effect hNum.side hStep
      refine ⟨numbered_step hNum hStep, Core.tasksOk_step hTasks hEffect,
        hEffect.fixed.2.trans hLimits, ?_⟩
      refine Core.tracked_step hTracked hEffect (fun _ hId => hNum.next_fresh hTasks hId) ?_ ?_
      · intro _ hTurn
        rw [turn_eq_decode hTurn] at hGuard
        simpa [keepsRunning] using hGuard
      · intro hTurn
        rw [turn_eq_event hTurn] at hGuard
        simpa [keepsRunning] using hGuard
    · exact ⟨numbered_new .., Core.tasksOk_new .., rfl, Core.tracked_new ..⟩
  obtain ⟨-, -, hLimits, hTracked⟩ := hInv
  exact hLimits ▸ hTracked.running_le

theorem AgentSession.tracked_run {limits : SessionLimits} {hasShutdown : Bool}
    {acts : List AgentAction} {s : AgentSession}
    (hKeeps : Guarded AgentSession.step (fun s a => s.keepsRunning a)
      (.new limits hasShutdown) acts)
    (hRun : exec AgentSession.step (.new limits hasShutdown) acts = some s) :
    s.core.runningTasks ≤ limits.maxStreams := by
  have hInv : s.core.side = .agent ∧ s.core.limits = limits ∧ s.core.Tracked := by
    refine exec_induction_guarded
      (P := fun s => s.core.side = .agent ∧ s.core.limits = limits ∧ s.core.Tracked)
      ?_ ?_ hKeeps hRun
    · rintro _ _ _ ⟨hSide, hLimits, hTracked⟩ hGuard hStep
      have hEffect := step_effect 0 hSide hStep
      refine ⟨hEffect.fixed.1.trans hSide, hEffect.fixed.2.trans hLimits, ?_⟩
      refine Core.tracked_step hTracked hEffect (fun hEdge => by simp [hSide] at hEdge) ?_ ?_
      · intro _ hTurn
        rw [turn_eq_decode hTurn] at hGuard
        simpa [keepsRunning] using hGuard
      · intro hTurn
        rw [turn_eq_event hTurn] at hGuard
        simpa [keepsRunning] using hGuard
    · exact ⟨rfl, rfl, Core.tracked_new ..⟩
  obtain ⟨-, hLimits, hTracked⟩ := hInv
  exact hLimits ▸ hTracked.running_le

/-- **The limit holds as long as running tasks stay in the map.** In every run of an
Edge or an Agent session whose steps all keep the entries of running tasks, the
number of running stream tasks never exceeds the configured limit. -/
theorem runningTasks_le_of_keepsRunning (limits : SessionLimits) :
    (∀ (commandCapacity : Nat) (acts : List EdgeAction) (s : EdgeSession),
      Guarded EdgeSession.step (fun s a => s.keepsRunning a)
        (.new limits commandCapacity) acts →
      exec EdgeSession.step (.new limits commandCapacity) acts = some s →
      s.core.runningTasks ≤ limits.maxStreams) ∧
    (∀ (hasShutdown : Bool) (acts : List AgentAction) (s : AgentSession),
      Guarded AgentSession.step (fun s a => s.keepsRunning a)
        (.new limits hasShutdown) acts →
      exec AgentSession.step (.new limits hasShutdown) acts = some s →
      s.core.runningTasks ≤ limits.maxStreams) :=
  ⟨fun _ _ _ => EdgeSession.tracked_run, fun _ _ _ => AgentSession.tracked_run⟩

/-! ## The limit is not unconditional -/

namespace CapacityExample

open Sample (openBytes dataBytes)

/-- One stream, and room for one frame in its inbound queue. -/
def limits : SessionLimits :=
  { Sample.limits with perStreamQueue := 1, perStreamQueue_pos := Nat.one_pos }

/-- Three one-byte DATA frames: the first blocks in the socket write, the second
fills the queue, the third finds it full. -/
def burst : List UInt8 := dataBytes 1 1 ++ dataBytes 1 2 ++ dataBytes 1 3

/-- The public client of stream 1 stops reading, and a second open is admitted. -/
def edgeRun : List EdgeAction :=
  [.enqueue .open, .command, .core (.task 0 .sent),
    .core (.arrive (openBytes 1 ++ burst)), .decode 16, .core (.task 0 .recv),
    .decode 16, .decode 1, .core (.task 0 .recv), .decode 16, .decode 1,
    .decode 16, .decode 1, .sent, .enqueue .open, .command]

/-- The local service of stream 1 stops reading, and a second open is admitted. -/
def agentRun : List AgentAction :=
  [.core (.arrive (openBytes 1)), .decode 16, .core (.task 0 .connected), .core (.task 0 .sent),
    .core (.arrive (burst ++ openBytes 2)), .decode 16, .decode 1, .core (.task 0 .recv),
    .decode 16, .decode 1, .decode 16, .decode 1, .sent, .decode 16]

/-- An open that is served to its end, within the condition. -/
def servedRun : List EdgeAction :=
  [.enqueue .open, .command, .core (.task 0 .sent), .core (.arrive (openBytes 1)), .decode 16,
    .core (.task 0 .recv)]

end CapacityExample

open CapacityExample in
/-- **A blocked write defeats the limit.** With a limit of one, the Edge and the Agent
both reach a state with two running stream tasks. -/
theorem runningTasks_exceeds_limit :
    (∃ s, exec EdgeSession.step (.new limits 1) edgeRun = some s ∧
      limits.maxStreams < s.core.runningTasks) ∧
    (∃ s, exec AgentSession.step (.new limits false) agentRun = some s ∧
      limits.maxStreams < s.core.runningTasks) := by
  decide +kernel

open CapacityExample in
/-- A session that stays within the condition. -/
theorem runningTasks_le_servedRun :
    ∃ s, exec EdgeSession.step (.new limits 1) servedRun = some s ∧
      s.core.runningTasks ≤ limits.maxStreams := by
  obtain ⟨s, hs, -⟩ : ∃ s, exec EdgeSession.step (.new limits 1) servedRun = some s ∧
      s.core.runningTasks = 1 := by decide +kernel
  exact ⟨s, hs, (runningTasks_le_of_keepsRunning limits).1 1 servedRun s (by decide +kernel) hs⟩

end TunnelProxy.Mux
