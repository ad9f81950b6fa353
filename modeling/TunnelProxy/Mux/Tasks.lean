import TunnelProxy.Mux.Steps
import TunnelProxy.Lib.IndexMap

/-!
# What every session keeps about its stream tasks

`Core.TasksOk` collects, for any peer, what holds of all stream tasks of a
session: each satisfies its own invariants, and the stream map points from an id
to a task of that id. `EdgeSession.Numbered` adds that an Edge session numbers its
streams 1, 2, 3, … in the order it spawns them, so that no id is used twice.

* `Core.tasksOk_step` — every session step keeps `TasksOk`.
* `EdgeSession.numbered_step` — every Edge step keeps `Numbered`.
-/

namespace TunnelProxy.Mux

open Protocol Std StreamTask List

namespace Core

/-! ## How tasks and map change -/

/-- What a step outside the dispatch loop leaves alone, and how it replaces a task. -/
structure Outside (c c' : Core) : Prop where
  side : c'.side = c.side
  limits : c'.limits = c.limits
  streams : c'.streams = c.streams
  dispatch : c'.dispatch = c.dispatch
  received : c'.received = c.received
  decoder : c'.decoder = c.decoder
  bytesIn : c'.bytesIn = c.bytesIn
  tasks : c'.tasks = c.tasks ∨ ∃ i t t', c.tasks[i]? = some t ∧ c'.tasks = c.tasks.set i t' ∧
    t.running ∧ (t' = t.drop ∨ ∃ e, t.step e = some t')

variable {a : CoreAction} {c c' : Core} {next next' : UInt32} {turn : Turn} {t t' : StreamTask}
  {streamId : StreamId} {result : Option (Except ProtocolError Frame)}

theorem Effect.outside (h : Effect c a c') : Outside c c' := by
  cases h with
  | task i t t' e hTask hStep =>
    exact ⟨rfl, rfl, rfl, rfl, rfl, rfl, rfl, .inr ⟨i, t, t', hTask, rfl,
      running_of_step hStep, .inr ⟨e, hStep⟩⟩⟩
  | control i t t' frame pipe hTask hStep | data i t t' frame pipe hTask hStep
  | closed i t t' hTask hStep =>
    exact ⟨rfl, rfl, rfl, rfl, rfl, rfl, rfl, .inr ⟨i, t, t', hTask, rfl,
      running_of_step hStep, .inr ⟨_, hStep⟩⟩⟩
  | abort i t hTask hRuns =>
    exact ⟨rfl, rfl, rfl, rfl, rfl, rfl, rfl, .inr ⟨i, t, t.drop, hTask, rfl, hRuns, .inl rfl⟩⟩
  | writer | arrive | arriveEof | depart =>
    exact ⟨rfl, rfl, rfl, rfl, rfl, rfl, rfl, .inl rfl⟩

/-- The ways a session replaces a task by its successor. -/
inductive Succeeds (t : StreamTask) : StreamTask → Prop where
  | step (e : TaskEvent) (t' : StreamTask) (h : t.step e = some t') : Succeeds t t'
  | drop : Succeeds t t.drop
  | push (frame : Frame) : Succeeds t { t with inbound := t.inbound ++ [frame] }

/-- What a session step does to tasks and map together. -/
inductive Change (c c' : Core) : Prop where
  | task (i : Nat) (t t' : StreamTask) (hTask : c.tasks[i]? = some t) (hRuns : t.running)
      (hNext : Succeeds t t') (hTasks : c'.tasks = c.tasks.set i t')
      (hStreams : c'.streams = c.streams)
  | map (hTasks : c'.tasks = c.tasks)
      (hStreams : c'.streams = c.streams ∨ c'.streams = ∅ ∨
        ∃ streamId, c'.streams = c.streams.erase streamId)
  | spawn (streamId : StreamId) (hId : streamId ≠ StreamId.control) (born : Nat)
      (hTasks : c'.tasks = c.tasks ++ [start c.side streamId hId born])
      (hStreams : c'.streams = c.streams.insert streamId c.tasks.length)

theorem Effect.change (h : Effect c a c') : Change c c' := by
  have hOut := h.outside
  rcases hOut.tasks with hTasks | ⟨i, t, t', hTask, hTasks, hRuns, hNext⟩
  · exact .map hTasks (.inl hOut.streams)
  · rcases hNext with rfl | ⟨e, hStep⟩
    · exact .task i t _ hTask hRuns .drop hTasks hOut.streams
    · exact .task i t t' hTask hRuns (.step e t' hStep) hTasks hOut.streams

theorem Stops.change (h : Stops c c') : Change c c' :=
  .map h.tasks (h.streams.elim (fun h => .inr (.inl h)) fun h => .inl h.1)

theorem length_tasks_spawn (hId : streamId ≠ StreamId.control) :
    (c.spawn streamId).tasks.length = c.tasks.length + 1 := by
  simp [spawn, hId]

theorem spawn_change (hId : streamId ≠ StreamId.control) : Change c (c.spawn streamId) := by
  refine .spawn streamId hId c.received.length ?_ ?_ <;> simp [spawn, hId]

theorem Handled.change (h : Handled c result c') :
    Change c c' := by
  cases h with
  | incomplete | keep | send =>
    exact .map rfl (.inl rfl)
  | stop _ _ hStop => exact hStop.change
  | forward frame _ _ hForward =>
    cases hForward with
    | delivered i t _ hTask hRuns =>
      exact .task i t _ hTask hRuns (.push frame) rfl rfl
    | removed => exact .map rfl (.inr (.inr ⟨frame.streamId, rfl⟩))
    | ignored => exact .map rfl (.inl rfl)
  | spawn _ _ hType =>
    exact spawn_change (streamId_ne_control (by rw [hType]; rfl))

theorem SessionEffect.change (h : SessionEffect c turn next next' c') : Change c c' := by
  cases h with
  | core _ _ _ hStep => exact (step_effect hStep).change
  | same | ping => exact .map rfl (.inl rfl)
  | read _ _ _ _ _ hRead hHandled =>
    obtain ⟨-, -, -, -, rfl⟩ := read_eq hRead
    cases hHandled.change with
    | task i t t' hTask hRuns hNext hTasks hStreams =>
      exact .task i t t' hTask hRuns hNext hTasks hStreams
    | map hTasks hStreams => exact .map hTasks hStreams
    | spawn streamId hId born hTasks hStreams => exact .spawn streamId hId born hTasks hStreams
  | spawn _ _ hId => exact spawn_change hId
  | event streamId _ _ _ _ _ hNext =>
    rcases hNext with rfl | hStop
    · exact .map rfl (.inr (.inr ⟨streamId, rfl⟩))
    · refine .map hStop.tasks ?_
      rcases hStop.streams with hEmpty | ⟨hSame, -⟩
      · exact .inr (.inl hEmpty)
      · exact .inr (.inr ⟨streamId, hSame⟩)
  | sent _ _ _ _ _ hNext =>
    rcases hNext with rfl | hStop
    · exact .map rfl (.inl rfl)
    · exact .map hStop.tasks (hStop.streams.elim (fun h => .inr (.inl h)) fun h => .inl h.1)
  | stop _ hStop => exact hStop.change

/-! ## Properties of every task -/

/-- A property of single tasks that spawning establishes and nothing breaks. -/
structure TaskInvariant (side : Side) (P : StreamTask → Prop) : Prop where
  start : ∀ id hId born, P (start side id hId born)
  succeeds : ∀ t t', P t → Succeeds t t' → P t'

theorem TaskInvariant.change {P : StreamTask → Prop} (hP : TaskInvariant c.side P) (h : Change c c')
    (hAll : ∀ t ∈ c.tasks, P t) : ∀ t ∈ c'.tasks, P t := by
  cases h with
  | task _ t _ hTask _ hNext hTasks =>
    intro x hx
    rw [hTasks] at hx
    rcases mem_or_eq_of_mem_set hx with hx | rfl
    · exact hAll x hx
    · exact hP.succeeds t _ (hAll t (mem_of_getElem? hTask)) hNext
  | map hTasks => rwa [hTasks]
  | spawn streamId hId born hTasks =>
    intro x hx
    rw [hTasks] at hx
    rcases mem_append.mp hx with hx | hx
    · exact hAll x hx
    · rw [mem_singleton.mp hx]
      exact hP.start streamId hId born

theorem Succeeds.fixed (h : Succeeds t t') :
    t'.id = t.id ∧ t'.side = t.side ∧ t'.born = t.born := by
  cases h with
  | step _ _ h => exact step_fixed h
  | drop | push => exact ⟨rfl, rfl, rfl⟩

theorem Succeeds.receives (hInv : t.Receives) (h : Succeeds t t') : t'.Receives := by
  cases h with
  | step _ _ h => exact receives_step hInv h
  | drop => exact hInv.drop
  | push => exact { hInv with }

theorem Succeeds.sends (hInv : t.Sends) (h : Succeeds t t') : t'.Sends := by
  cases h with
  | step _ _ h => exact sends_step hInv h
  | drop =>
    exact hInv.keep rfl rfl rfl rfl rfl fun hLive => by
      simp [StreamTask.drop, live] at hLive
  | push => exact { hInv with }

theorem Succeeds.opens (hInv : t.Opens) (h : Succeeds t t') : t'.Opens := by
  cases h with
  | step _ _ h => exact opens_step hInv h
  | drop =>
    exact opens_of_past (.inr rfl) fun hCase =>
      hInv.produced (hCase.resolve_left (by simp [StreamTask.drop, relaying]))
  | push => exact { hInv with }

/-- What holds of each task of a session, whatever the peer does. -/
structure TaskOk (side : Side) (t : StreamTask) : Prop where
  side : t.side = side
  receives : t.Receives
  sends : t.Sends
  opens : t.Opens

theorem taskInvariant_taskOk (side : Side) : TaskInvariant side (TaskOk side) where
  start _ _ _ := by
    refine ⟨rfl, ?_, ?_, ?_⟩
    all_goals
      constructor <;> cases side <;> simp [start, live, unwritten, pendingData, relaying]
  succeeds _ _ hOk hNext := ⟨hNext.fixed.2.1.trans hOk.side, hNext.receives hOk.receives,
    hNext.sends hOk.sends, hNext.opens hOk.opens⟩

/-! ## All tasks and the map -/

/-- A frame that does not stop the loop reaches the streams, the tasks and the dispatch only. -/
theorem Handled.outside (h : Handled c result c') :
    Stops c c' ∨ ∃ streams tasks dispatch, c' = { c with streams, tasks, dispatch } := by
  cases h with
  | stop _ _ hStop => exact .inl hStop
  | incomplete | keep | send => exact .inr ⟨_, _, _, rfl⟩
  | forward _ _ _ hForward => cases hForward <;> exact .inr ⟨_, _, _, rfl⟩
  | spawn =>
    unfold Core.spawn
    split <;> exact .inr ⟨_, _, _, rfl⟩

/-- Handling a frame leaves the queues of the writer alone. -/
theorem Handled.pipe (h : Handled c result c') :
    c'.pipe = c.pipe := by
  rcases h.outside with hStop | ⟨_, _, _, rfl⟩
  · exact hStop.pipe
  · rfl

theorem SessionEffect.fixed (h : SessionEffect c turn next next' c') :
    c'.side = c.side ∧ c'.limits = c.limits := by
  cases h with
  | core _ _ _ hStep => exact ⟨(step_effect hStep).outside.side, (step_effect hStep).outside.limits⟩
  | same | ping => exact ⟨rfl, rfl⟩
  | read _ _ _ _ _ hRead hHandled =>
    obtain ⟨-, -, -, -, rfl⟩ := read_eq hRead
    rcases hHandled.outside with hStop | ⟨_, _, _, rfl⟩
    · exact ⟨hStop.side, hStop.limits⟩
    · exact ⟨rfl, rfl⟩
  | spawn =>
    unfold Core.spawn
    split_ifs <;> exact ⟨rfl, rfl⟩
  | event streamId rest hTurn hSelect hEvents c' hNext | sent frame pipe hSending hPush c' hNext =>
    rcases hNext with rfl | hStop
    · exact ⟨rfl, rfl⟩
    · exact ⟨hStop.side, hStop.limits⟩
  | stop _ hStop => exact ⟨hStop.side, hStop.limits⟩

theorem Effect.length_tasks (h : Effect c a c') : c'.tasks.length = c.tasks.length := by
  rcases h.outside.tasks with hTasks | ⟨_, _, _, -, hTasks, -⟩
  · rw [hTasks]
  · rw [hTasks, length_set]

/-- On the Edge only an open adds a task, and it uses the next id. -/
theorem SessionEffect.spawned (hSide : c.side = .edge) (h : SessionEffect c turn next next' c') :
    next' = next ∧ c'.tasks.length = c.tasks.length ∨
      next ≠ StreamId.control ∧ next' = advanceStreamId next ∧ c' = c.spawn next := by
  cases h with
  | core _ _ _ hStep => exact .inl ⟨rfl, (step_effect hStep).length_tasks⟩
  | same | ping => exact .inl ⟨rfl, rfl⟩
  | read _ _ _ _ _ hRead hHandled =>
    obtain ⟨-, -, -, -, rfl⟩ := read_eq hRead
    refine .inl ⟨rfl, ?_⟩
    cases hHandled with
    | incomplete | keep | send => rfl
    | stop _ _ hStop => exact congrArg List.length hStop.tasks
    | forward _ _ _ hForward =>
      cases hForward with
      | delivered => simp [setTask]
      | removed | ignored => rfl
    | spawn _ hAgent => exact absurd (hAgent.symm.trans hSide) (by simp)
  | spawn _ _ hId => exact .inr ⟨hId, rfl, rfl⟩
  | event streamId rest hTurn hSelect hEvents c' hNext | sent frame pipe hSending hPush c' hNext =>
    rcases hNext with rfl | hStop
    · exact .inl ⟨rfl, rfl⟩
    · exact .inl ⟨rfl, congrArg List.length hStop.tasks⟩
  | stop _ hStop => exact .inl ⟨rfl, congrArg List.length hStop.tasks⟩

/-- Every task keeps its invariants, and the map points to tasks of its ids. -/
structure TasksOk (c : Core) : Prop where
  tasks : ∀ t ∈ c.tasks, TaskOk c.side t
  mapped : ∀ (streamId : StreamId) (i : Nat), c.streams[streamId]? = some i →
    ∃ t, c.tasks[i]? = some t ∧ t.id = streamId

theorem tasksOk_new (side : Side) (limits : SessionLimits) : (new side limits).TasksOk where
  tasks t h := by simp [new] at h
  mapped streamId i h := by simp [new] at h

theorem Change.mapped (h : Change c c')
    (hMapped : ∀ (streamId : StreamId) (i : Nat), c.streams[streamId]? = some i →
      ∃ t, c.tasks[i]? = some t ∧ t.id = streamId) :
    ∀ (streamId : StreamId) (i : Nat), c'.streams[streamId]? = some i →
      ∃ t, c'.tasks[i]? = some t ∧ t.id = streamId := by
  intro streamId i hEntry
  cases h with
  | task _ _ t' hTask _ hNext hTasks hStreams =>
    obtain ⟨u, hu, hId⟩ := hMapped streamId i (hStreams ▸ hEntry)
    rw [hTasks, getElem?_set]
    split_ifs with hEq hLt
    · subst hEq
      rw [hTask, Option.some.injEq] at hu
      exact ⟨t', rfl, by rw [hNext.fixed.1, hu, hId]⟩
    · exact absurd (List.getElem?_eq_some_iff.mp hTask).1 hLt
    · exact ⟨u, hu, hId⟩
  | map hTasks hStreams =>
    rw [hTasks]
    rcases hStreams with hSame | hEmpty | ⟨_, hErase⟩
    · exact hMapped streamId i (hSame ▸ hEntry)
    · simp [hEmpty] at hEntry
    · rw [hErase, ExtTreeMap.getElem?_erase] at hEntry
      split_ifs at hEntry
      exact hMapped streamId i hEntry
  | spawn _ _ _ hTasks hStreams =>
    rw [hStreams, ExtTreeMap.getElem?_insert] at hEntry
    rw [hTasks]
    split_ifs at hEntry with hEq
    · cases hEntry
      rw [Std.compare_eq_iff_eq] at hEq
      exact ⟨_, getElem?_concat_length, hEq⟩
    · obtain ⟨t, ht, hId'⟩ := hMapped streamId i hEntry
      exact ⟨t, by rw [getElem?_append_left (List.getElem?_eq_some_iff.mp ht).1]; exact ht,
        hId'⟩

/-- **Every session step keeps `TasksOk`.** -/
theorem tasksOk_step (hInv : c.TasksOk) (h : SessionEffect c turn next next' c') : c'.TasksOk where
  tasks := by
    rw [h.fixed.1]
    exact (taskInvariant_taskOk c.side).change h.change hInv.tasks
  mapped := h.change.mapped hInv.mapped

theorem TasksOk.getElem (hInv : c.TasksOk) {i : Nat} (h : c.tasks[i]? = some t) : TaskOk c.side t :=
  hInv.tasks t (mem_of_getElem? h)

/-! ## The last sender -/

theorem disconnected_iff :
    c.disconnected ↔ c.dispatch.holdsSenders = false ∧ ∀ t ∈ c.tasks, t.running = false := by
  simp [disconnected]

/-- A step that needs a sender cannot happen once all of them are gone. -/
theorem not_disconnected_of_holds (h : c.dispatch.holdsSenders = true) :
    ¬ c.disconnected := fun hGone => by simp [(disconnected_iff.mp hGone).1] at h

theorem not_disconnected_of_running {i : Nat} (hTask : c.tasks[i]? = some t) (hRuns : t.running) :
    ¬ c.disconnected := fun hGone => by
  simp [(disconnected_iff.mp hGone).2 t (mem_of_getElem? hTask)] at hRuns

theorem disconnected_of_stops (h : Stops c c') (hGone : c.disconnected) : c'.disconnected := by
  obtain ⟨hHolds, hTasks⟩ := disconnected_iff.mp hGone
  refine disconnected_iff.mpr ⟨?_, h.tasks ▸ hTasks⟩
  cases hHolds' : c'.dispatch.holdsSenders with
  | false => rfl
  | true => exact absurd (h.holds hHolds') (by simp [hHolds])

end Core

/-! ## Stream numbers of the Edge -/

namespace EdgeSession

/-- The `i`-th task has id `i + 1`; the next id follows, until ids run out. -/
structure Numbered (s : EdgeSession) : Prop where
  side : s.core.side = .edge
  ids : ∀ (i : Nat) (t : StreamTask), s.core.tasks[i]? = some t → t.id.toNat = i + 1
  next : s.nextStreamId = 0 ∨ s.nextStreamId.toNat = s.core.tasks.length + 1

theorem numbered_new (limits : SessionLimits) (commandCapacity : Nat) :
    (new limits commandCapacity).Numbered where
  side := rfl
  ids i t h := by simp [new, Core.new] at h
  next := .inr rfl

variable {s : EdgeSession}

/-- **Every Edge step keeps the numbering.** -/
theorem numbered_step {s' : EdgeSession} {a : EdgeAction} (hInv : s.Numbered)
    (h : s.step a = some s') : s'.Numbered := by
  have hEffect := step_effect hInv.side h
  have hSide := hEffect.fixed.1.trans hInv.side
  rcases hEffect.spawned hInv.side with ⟨hNext, hLen⟩ | ⟨hId, hNext, hCore⟩
  · refine ⟨hSide, ?_, by rw [hNext, hLen]; exact hInv.next⟩
    cases hEffect.change with
    | task i t _ hTask _ hSucc hTasks =>
      intro j u hu
      rw [hTasks, getElem?_set] at hu
      split_ifs at hu with hEq hLt
      · cases hu
        rw [hSucc.fixed.1, ← hEq]
        exact hInv.ids i t hTask
      · exact hInv.ids j u hu
    | map hTasks => rw [hTasks]; exact hInv.ids
    | spawn _ _ _ hTasks => simp [hTasks] at hLen
  · have hNum : s.nextStreamId.toNat = s.core.tasks.length + 1 := hInv.next.resolve_left hId
    refine ⟨hSide, ?_, ?_⟩
    · intro j u hu
      rw [hCore, Core.spawn, dif_pos hId, getElem?_append] at hu
      split_ifs at hu with hLt
      · exact hInv.ids j u hu
      · rw [getElem?_singleton] at hu
        split_ifs at hu with hZero
        cases hu
        show s.nextStreamId.toNat = j + 1
        omega
    · rw [hNext, hCore, Core.length_tasks_spawn hId, ← hNum]
      unfold Core.advanceStreamId
      split_ifs with hLast
      · exact .inl rfl
      · right
        have hNe : s.nextStreamId.toNat ≠ 2 ^ 32 - 1 := fun h => hLast (UInt32.toNat.inj h)
        have hLt := UInt32.toNat_lt s.nextStreamId
        rw [UInt32.toNat_add]
        show (s.nextStreamId.toNat + 1) % 2 ^ 32 = _
        omega

/-- No two tasks of an Edge session share an id. -/
theorem Numbered.id_inj (hInv : s.Numbered) {i j : Nat} {t u : StreamTask}
    (hi : s.core.tasks[i]? = some t) (hj : s.core.tasks[j]? = some u) (hId : t.id = u.id) :
    i = j := by
  have hT := hInv.ids i t hi
  have hU := hInv.ids j u hj
  rw [hId] at hT
  omega

end EdgeSession

end TunnelProxy.Mux
