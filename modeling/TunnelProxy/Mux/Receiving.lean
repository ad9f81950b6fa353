import TunnelProxy.Mux.Tasks

/-!
# What a session does with the bytes of its peer

`Core.Received` ties the bytes a session has read to the frames its stream tasks
got, for any peer: the decoded frames are the bytes read, and a task gets a prefix
of the frames of its stream that follow its spawning, without a gap. As long as the
task is in the stream map it has got all of them.

* `Core.received_step` — every session step keeps `Received`.
* `Core.Spawned`, `Core.spawned_step` — on the Agent every task answers an
  `OPEN_STREAM` of its own.
-/

namespace TunnelProxy.Mux

open Protocol Std List StreamTask FrameDecoder

namespace Core

/-- The frames among the received ones that a stream task of this id may get. -/
def streamFrames (side : Side) (id : StreamId) (frames : List Frame) : List Frame :=
  frames.filter fun f => f.streamId = id && forwards side f

@[simp] theorem streamFrames_append (side : Side) (id : StreamId) (xs ys : List Frame) :
    streamFrames side id (xs ++ ys) = streamFrames side id xs ++ streamFrames side id ys :=
  filter_append ..

/-- What the stream of a task has received since the task was spawned. -/
def addressed (c : Core) (t : StreamTask) : List Frame :=
  streamFrames c.side t.id (c.received.drop t.born)

structure Received (c : Core) : Prop where
  whole : c.dispatch.looping → c.bytesIn = encodeAll c.received ++ c.decoder.buffered
  cut : encodeAll c.received <+: c.bytesIn
  born : ∀ t ∈ c.tasks, t.born ≤ c.received.length
  inOrder : ∀ t ∈ c.tasks, t.consumed ++ t.inbound <+: c.addressed t
  current : c.dispatch.looping → ∀ (i : Nat) (t : StreamTask), c.tasks[i]? = some t →
    t.running → c.streams[t.id]? = some i → t.consumed ++ t.inbound = c.addressed t

/-! ## Outside the dispatch loop -/

variable {t t' : StreamTask} {c c' : Core} {result : Option (Except ProtocolError Frame)}
  {frame : Frame} {next next' : UInt32} {turn : Turn} {streamId : StreamId} {b : StreamId × Nat}

/-- The core itself receives nothing; a task takes from its own queue. -/
theorem Effect.received {a : CoreAction} (hInv : c.Received) (h : Effect c a c') : c'.Received := by
  have hOut := h.outside
  have hAddr : ∀ t t' : StreamTask, t'.id = t.id → t'.born = t.born →
      c'.addressed t' = c.addressed t := fun t t' hId hBorn => by
    rw [addressed, addressed, hOut.side, hOut.received, hId, hBorn]
  have hWhole : c'.dispatch.looping →
      c'.bytesIn = encodeAll c'.received ++ c'.decoder.buffered := by
    rw [hOut.dispatch, hOut.bytesIn, hOut.received, hOut.decoder]
    exact hInv.whole
  have hCut : encodeAll c'.received <+: c'.bytesIn := by
    rw [hOut.received, hOut.bytesIn]
    exact hInv.cut
  rcases hOut.tasks with hTasks | ⟨i, t, t', hTask, hTasks, hRuns, hNext⟩
  · refine ⟨hWhole, hCut, ?_, ?_, ?_⟩
    · rw [hTasks, hOut.received]; exact hInv.born
    · intro u hu
      rw [hAddr u u rfl rfl]
      exact hInv.inOrder u (hTasks ▸ hu)
    · intro hLoop j u hu hRuns hEntry
      rw [hAddr u u rfl rfl]
      exact hInv.current (hOut.dispatch ▸ hLoop) j u (hTasks ▸ hu) hRuns (hOut.streams ▸ hEntry)
  · have hMem := mem_of_getElem? hTask
    -- one task took a step or was dropped: its queue goes on where it was
    have hFixed : t'.id = t.id ∧ t'.born = t.born := by
      rcases hNext with rfl | ⟨_, hStep⟩
      · exact ⟨rfl, rfl⟩
      · exact ⟨(step_fixed hStep).1, (step_fixed hStep).2.2⟩
    have hIntake : t'.consumed ++ t'.inbound = t.consumed ++ t.inbound ∨ t' = t.drop := by
      rcases hNext with rfl | ⟨_, hStep⟩
      · exact .inr rfl
      · exact intake_of_step hStep
    refine ⟨hWhole, hCut, ?_, ?_, ?_⟩
    · intro u hu
      rw [hOut.received]
      rcases mem_or_eq_of_mem_set (hTasks ▸ hu) with hu | rfl
      · exact hInv.born u hu
      · exact hFixed.2 ▸ hInv.born t hMem
    · intro u hu
      rcases mem_or_eq_of_mem_set (hTasks ▸ hu) with hu | rfl
      · rw [hAddr u u rfl rfl]
        exact hInv.inOrder u hu
      · rw [hAddr t u hFixed.1 hFixed.2]
        rcases hIntake with hEq | rfl
        · exact hEq ▸ hInv.inOrder t hMem
        · refine IsPrefix.trans ?_ (hInv.inOrder t hMem)
          simp [StreamTask.drop]
    · intro hLoop j u hu hURuns hEntry
      rw [hOut.dispatch] at hLoop
      rw [hOut.streams] at hEntry
      rw [hTasks, getElem?_set] at hu
      split_ifs at hu with hij hLt
      · cases hu
        subst hij
        rw [hAddr t t' hFixed.1 hFixed.2]
        rcases hIntake with hEq | rfl
        · rw [hEq]
          exact hInv.current hLoop i t hTask hRuns (hFixed.1 ▸ hEntry)
        · simp [StreamTask.drop, running] at hURuns
      · rw [hAddr u u rfl rfl]
        exact hInv.current hLoop j u hu hURuns hEntry

theorem received_of_stops (hCut : encodeAll c.received <+: c.bytesIn)
    (hBorn : ∀ t ∈ c.tasks, t.born ≤ c.received.length)
    (hOrder : ∀ t ∈ c.tasks, t.consumed ++ t.inbound <+: c.addressed t) (h : Stops c c') :
    c'.Received where
  whole hLoop := by simp [h.looping] at hLoop
  cut := by rw [h.received, h.bytesIn]; exact hCut
  born := by rw [h.tasks, h.received]; exact hBorn
  inOrder t ht := by
    rw [addressed, h.side, h.received]
    exact hOrder t (h.tasks ▸ ht)
  current hLoop := by simp [h.looping] at hLoop

/-! ## A read and what the loop does with its frame -/

theorem addressed_append (hBorn : t.born ≤ c.received.length) (frames : List Frame) :
    streamFrames c.side t.id ((c.received ++ frames).drop t.born) =
      c.addressed t ++ streamFrames c.side t.id frames := by
  rw [drop_append_of_le_length hBorn, streamFrames_append]
  rfl

/-- `Received` between a read and the handling of its frame, which no task has yet. -/
structure Unhandled (c : Core) (result : Option (Except ProtocolError Frame)) : Prop where
  looping : c.dispatch.looping
  whole : (∀ error, result ≠ some (.error error)) →
    c.bytesIn = encodeAll c.received ++ c.decoder.buffered
  cut : encodeAll c.received <+: c.bytesIn
  born : ∀ t ∈ c.tasks, t.born ≤ c.received.length
  inOrder : ∀ t ∈ c.tasks, t.consumed ++ t.inbound <+: c.addressed t
  current : ∀ (i : Nat) (t : StreamTask), c.tasks[i]? = some t → t.running →
    c.streams[t.id]? = some i →
    t.consumed ++ t.inbound ++ streamFrames c.side t.id (completed result) = c.addressed t

theorem unhandled_read {c₁ : Core} {n : Nat} (hInv : c.Received)
    (h : c.read n = some (result, c₁)) :
    Unhandled c₁ result := by
  obtain ⟨hSelect, _, _, rfl, rfl⟩ := read_eq h
  clear h
  have hLoop : c.dispatch.looping := by simp [hSelect, Dispatch.looping]
  have hBytes := hInv.whole hLoop
  have hLen : (c.incoming.take n).length ≤ c.decoder.wanted := by
    rw [length_take]
    omega
  rcases hFed : c.decoder.feed (c.incoming.take n) with ⟨decoder, result⟩
  have hBytes' : (∀ error, result ≠ some (.error error)) → c.bytesIn ++ c.incoming.take n =
        encodeAll (c.received ++ completed result) ++ decoder.buffered := by
    intro hOk
    rw [hBytes]
    rcases result with _ | error | frame
    · rw [feed_none hLen hFed]
      simp [completed]
    · exact absurd rfl (hOk error)
    · obtain ⟨rfl, hWire⟩ := feed_ok hLen hFed
      simp [completed, hWire]
  exact {
    looping := hLoop
    whole := hBytes'
    cut := by
      rcases result with _ | error | frame
      · exact hBytes' (by simp) ▸ prefix_append _ _
      · simp only [completed, append_nil]
        exact hInv.cut.trans (prefix_append _ _)
      · exact hBytes' (by simp) ▸ prefix_append _ _
    born := fun t ht => (hInv.born t ht).trans (by simp)
    inOrder := fun t ht => by
      rw [addressed, addressed_append (hInv.born t ht)]
      exact (hInv.inOrder t ht).trans (prefix_append _ _)
    current := fun i t ht hRuns hEntry => by
      rw [addressed, addressed_append (hInv.born t (mem_of_getElem? ht)),
        hInv.current hLoop i t ht hRuns hEntry] }

/-- The loop goes on with the tasks as they are; `hSkipped` says that no task that is
still in the map misses the frame. -/
theorem Unhandled.resume {streams : ExtTreeMap StreamId Nat} {dispatch : Dispatch}
    (hInv : Unhandled c result) (hOk : ∀ error, result ≠ some (.error error))
    (hSkipped : ∀ (i : Nat) (t : StreamTask), c.tasks[i]? = some t → streams[t.id]? = some i →
      c.streams[t.id]? = some i ∧ streamFrames c.side t.id (completed result) = []) :
    Received { c with streams, dispatch } where
  whole _ := hInv.whole hOk
  cut := hInv.cut
  born := hInv.born
  inOrder := hInv.inOrder
  current := by
    intro _ i t ht hRuns hEntry
    obtain ⟨hOld, hNone⟩ := hSkipped i t ht hEntry
    have hAll := hInv.current i t ht hRuns hOld
    rwa [hNone, append_nil] at hAll

theorem streamFrames_not_forwarded {side : Side} (h : forwards side frame = false) (id : StreamId) :
    streamFrames side id (completed (some (.ok frame))) = [] := by
  simp [streamFrames, completed, h]

theorem streamFrames_other {side : Side} {id : StreamId} (h : frame.streamId ≠ id) :
    streamFrames side id (completed (some (.ok frame))) = [] := by
  simp [streamFrames, completed, h]

theorem Unhandled.delivered (hInv : Unhandled c (some (.ok frame)))
    (hMapped : ∀ (streamId : StreamId) (i : Nat), c.streams[streamId]? = some i →
      ∃ t, c.tasks[i]? = some t ∧ t.id = streamId) (hType : forwards c.side frame) {i : Nat}
    (hEntry : c.streams[frame.streamId]? = some i) (hTask : c.tasks[i]? = some t)
    (hRuns : t.running) : (c.setTask i { t with inbound := t.inbound ++ [frame] }).Received := by
  have hId : t.id = frame.streamId := by
    obtain ⟨_, hu, _⟩ := hMapped _ i hEntry
    rw [hTask, Option.some.injEq] at hu
    rwa [hu]
  have hMem := mem_of_getElem? hTask
  have hFrame : streamFrames c.side t.id (completed (some (.ok frame))) = [frame] := by
    simp [streamFrames, completed, hId, hType]
  have hGot : t.consumed ++ (t.inbound ++ [frame]) = c.addressed t := by
    rw [← append_assoc, ← hFrame]
    exact hInv.current i t hTask hRuns (hId ▸ hEntry)
  exact {
    whole := fun _ => hInv.whole (by simp)
    cut := hInv.cut
    born := fun u hu => by
      rcases mem_or_eq_of_mem_set hu with hu | rfl
      · exact hInv.born u hu
      · exact hInv.born t hMem
    inOrder := fun u hu => by
      rcases mem_or_eq_of_mem_set hu with hu | rfl
      · exact hInv.inOrder u hu
      · show t.consumed ++ (t.inbound ++ [frame]) <+: c.addressed t
        rw [hGot]
    current := fun _ j u hu hURuns hUEntry => by
      rw [setTask, getElem?_set] at hu
      split_ifs at hu with hij hLt
      · cases hu
        exact hGot
      · -- Another task in the map has another id, so the frame is not its own.
        have hOther : frame.streamId ≠ u.id := fun hEq => by
          have hUEntry : c.streams[u.id]? = some j := hUEntry
          rw [← hEq, hEntry, Option.some.injEq] at hUEntry
          exact hij hUEntry
        have hOld := hInv.current j u hu hURuns hUEntry
        rwa [streamFrames_other hOther, append_nil] at hOld }

theorem Received.spawn (hInv : c.Received) (hLoop : c.dispatch.looping)
    (hId : streamId ≠ StreamId.control) : (c.spawn streamId).Received := by
  rw [Core.spawn, dif_pos hId]
  have hNone : c.addressed (start c.side streamId hId c.received.length) = [] := by
    simp [addressed, streamFrames, start]
  exact { hInv with
    born := fun t ht => by
      rcases mem_append.mp ht with ht | ht
      · exact hInv.born t ht
      · rw [mem_singleton.mp ht]
        exact Nat.le_refl _
    inOrder := fun t ht => by
      rcases mem_append.mp ht with ht | ht
      · exact hInv.inOrder t ht
      · rw [mem_singleton.mp ht]
        exact nil_prefix
    current := fun _ i t ht hRuns hEntry => by
      rw [ExtTreeMap.getElem?_insert] at hEntry
      rw [getElem?_append] at ht
      split_ifs at ht with hLt
      · split_ifs at hEntry with hEq
        · rw [Option.some.injEq] at hEntry
          omega
        · exact hInv.current hLoop i t ht hRuns hEntry
      · rw [getElem?_singleton] at ht
        split_ifs at ht
        cases ht
        exact hNone.symm }

theorem Handled.received (hInv : Unhandled c result) (hTasks : c.TasksOk)
    (h : Handled c result c') :
    c'.Received := by
  cases h with
  | incomplete =>
    exact hInv.resume (by simp) fun i t _ hEntry => ⟨hEntry, rfl⟩
  | stop _ _ hStop => exact received_of_stops hInv.cut hInv.born hInv.inOrder hStop
  | keep frame hType | send frame reply hType =>
    exact hInv.resume (by simp) fun i t _ hEntry =>
      ⟨hEntry, streamFrames_not_forwarded hType _⟩
  | forward _ _ hType hForward =>
    cases hForward with
    | delivered _ _ hEntry hTask hRuns =>
      exact hInv.delivered hTasks.mapped hType hEntry hTask hRuns
    | removed =>
      refine hInv.resume (by simp) fun i t _ hEntry => ?_
      simp only [removeStream, ExtTreeMap.getElem?_erase] at hEntry
      split_ifs at hEntry with hEq
      rw [Std.compare_eq_iff_eq] at hEq
      exact ⟨hEntry, streamFrames_other hEq⟩
    | ignored _ _ hEntry =>
      refine hInv.resume (by simp) fun i t ht hOld => ⟨hOld, ?_⟩
      refine streamFrames_other fun hEq => hEntry i t ?_ ht
      rw [hEq]
      exact hOld
  | spawn frame hSide hType =>
    have hNot : forwards c.side frame = false := by simp [forwards, hType, hSide]
    have hKept : c.Received := hInv.resume (by simp) fun i t _ hEntry =>
      ⟨hEntry, streamFrames_not_forwarded hNot _⟩
    exact hKept.spawn hInv.looping (streamId_ne_control (by rw [hType]; rfl))

/-- **Every session step keeps `Received`.** -/
theorem received_step (hInv : c.Received) (hTasks : c.TasksOk)
    (h : SessionEffect c turn next next' c') : c'.Received := by
  cases h with
  | core _ _ _ hStep => exact (step_effect hStep).received hInv
  | same => exact hInv
  | read _ _ _ _ _ hRead hHandled =>
    refine hHandled.received (unhandled_read hInv hRead) ?_
    obtain ⟨-, -, -, -, rfl⟩ := read_eq hRead
    exact ⟨hTasks.tasks, hTasks.mapped⟩
  | spawn _ hSelect hId =>
    exact hInv.spawn (by simp [hSelect, Dispatch.looping]) hId
  | event streamId rest _ _ _ _ hNext =>
    have hKept : (removeStream { c with events := rest } streamId).Received := by
      refine { hInv with current := fun hLoop i t ht hRuns hEntry => ?_ }
      simp only [removeStream, ExtTreeMap.getElem?_erase] at hEntry
      split_ifs at hEntry
      exact hInv.current hLoop i t ht hRuns hEntry
    rcases hNext with rfl | hStop
    · exact hKept
    · exact received_of_stops hKept.cut hKept.born hKept.inOrder hStop
  | ping _ hSelect =>
    have hLoop : c.dispatch.looping := by simp [hSelect, Dispatch.looping]
    exact { hInv with whole := fun _ => hInv.whole hLoop, current := fun _ => hInv.current hLoop }
  | sent _ pipe hSending _ _ hNext =>
    have hLoop : c.dispatch.looping := by simp [hSending, Dispatch.looping]
    have hKept : Received { c with pipe := pipe, dispatch := .select } :=
      { hInv with whole := fun _ => hInv.whole hLoop, current := fun _ => hInv.current hLoop }
    rcases hNext with rfl | hStop
    · exact hKept
    · exact received_of_stops hKept.cut hKept.born hKept.inOrder hStop
  | stop _ hStop => exact received_of_stops hInv.cut hInv.born hInv.inOrder hStop

/-! ## Which frames the tasks answer -/

/-- The id of every task and how many frames had been received when it was spawned. -/
def births (c : Core) : List (StreamId × Nat) := c.tasks.map fun t => (t.id, t.born)

theorem mem_births (h : t ∈ c.tasks) : (t.id, t.born) ∈ c.births :=
  mem_map.mpr ⟨t, h, rfl⟩

/-- What a session step does to tasks and received frames together. -/
inductive Births (c : Core) (next : UInt32) (c' : Core) : Prop where
  | none (hBirths : c'.births = c.births) (hReceived : c.received <+: c'.received)
  | edge (hSide : c.side = .edge) (hId : next ≠ StreamId.control)
      (hBirths : c'.births = c.births ++ [(next, c.received.length)])
      (hReceived : c'.received = c.received)
  | agent (hSide : c.side = .agent) (frame : Frame) (hType : frame.frameType = .openStream)
      (hBirths : c'.births = c.births ++ [(frame.streamId, c'.received.length)])
      (hReceived : c'.received = c.received ++ [frame])

theorem births_set {i : Nat} (hTask : c.tasks[i]? = some t) (hId : t'.id = t.id)
    (hBorn : t'.born = t.born) : (c.tasks.set i t').map (fun t => (t.id, t.born)) = c.births := by
  rw [map_set, births, hId, hBorn]
  refine ext_getElem? fun j => ?_
  rw [getElem?_set]
  split_ifs with hij hLt
  · subst hij
    simp [hTask]
  · subst hij
    rw [length_map] at hLt
    exact absurd (List.getElem?_eq_some_iff.mp hTask).1 hLt
  · rfl

theorem births_spawn (hId : streamId ≠ StreamId.control) :
    (c.spawn streamId).births = c.births ++ [(streamId, c.received.length)] ∧
      (c.spawn streamId).received = c.received := by
  rw [spawn, dif_pos hId]
  simp [births, start]

theorem Effect.births {a : CoreAction} (h : Effect c a c') :
    c'.births = c.births ∧ c'.received = c.received := by
  have hOut := h.outside
  refine ⟨?_, hOut.received⟩
  rcases hOut.tasks with hTasks | ⟨_, _, _, hTask, hTasks, -, hNext⟩
  · rw [Core.births, hTasks, Core.births]
  · rw [Core.births, hTasks]
    rcases hNext with rfl | ⟨_, hStep⟩
    · exact births_set hTask rfl rfl
    · obtain ⟨hId, -, hBorn⟩ := step_fixed hStep
      exact births_set hTask hId hBorn

theorem births_of_stops (h : Stops c c') : c'.births = c.births ∧ c'.received = c.received :=
  ⟨by rw [births, births, h.tasks], h.received⟩

theorem SessionEffect.births (h : SessionEffect c turn next next' c') : Births c next c' := by
  cases h with
  | core _ _ _ hStep =>
    obtain ⟨hBirths, hReceived⟩ := (step_effect hStep).births
    exact .none hBirths (hReceived ▸ prefix_rfl)
  | same | ping => exact .none rfl prefix_rfl
  | read _ result c₁ _ _ hRead hHandled =>
    have hRead' : c₁.side = c.side ∧ c₁.births = c.births ∧
        c₁.received = c.received ++ completed result := by
      obtain ⟨-, -, -, rfl, rfl⟩ := read_eq hRead
      exact ⟨rfl, rfl, rfl⟩
    obtain ⟨hSide₁, hBirths₁, hReceived₁⟩ := hRead'
    have hPre : c.received <+: c₁.received := hReceived₁ ▸ prefix_append _ _
    cases hHandled with
    | incomplete | keep | send => exact .none hBirths₁ hPre
    | stop _ _ hStop =>
      obtain ⟨hBirths, hReceived⟩ := births_of_stops hStop
      exact .none (hBirths.trans hBirths₁) (hReceived ▸ hPre)
    | forward _ _ _ hForward =>
      cases hForward with
      | delivered _ _ _ hTask =>
        refine .none (Eq.trans ?_ hBirths₁) hPre
        exact births_set hTask rfl rfl
      | removed | ignored => exact .none hBirths₁ hPre
    | spawn frame hSide hType =>
      have hId := streamId_ne_control (by rw [hType]; rfl : frame.frameType.scope = .stream)
      obtain ⟨hBirths, hReceived⟩ := births_spawn (c := c₁) hId
      rw [hBirths₁, ← hReceived] at hBirths
      exact .agent (hSide₁ ▸ hSide) frame hType hBirths (hReceived.trans hReceived₁)
  | spawn hSide _ hId =>
    obtain ⟨hBirths, hReceived⟩ := births_spawn hId
    exact .edge hSide hId hBirths hReceived
  | event streamId rest hTurn hSelect hEvents c' hNext | sent frame pipe hSending hPush c' hNext =>
    rcases hNext with rfl | hStop
    · exact .none rfl prefix_rfl
    · obtain ⟨hBirths, hReceived⟩ := births_of_stops hStop
      exact .none hBirths (hReceived ▸ prefix_rfl)
  | stop _ hStop =>
    obtain ⟨hBirths, hReceived⟩ := births_of_stops hStop
    exact .none hBirths (hReceived ▸ prefix_rfl)

/-- Every task of an Agent session answers an `OPEN_STREAM` of its own: the frame
that was received last before it was spawned. -/
structure Spawned (c : Core) : Prop where
  side : c.side = .agent
  opened : ∀ b ∈ c.births, ∃ k frame, b.2 = k + 1 ∧ c.received[k]? = some frame ∧
    frame.frameType = .openStream ∧ frame.streamId = b.1
  ordered : c.births.Pairwise fun a b => a.2 < b.2

theorem Spawned.born_le (hInv : c.Spawned) (h : b ∈ c.births) : b.2 ≤ c.received.length := by
  obtain ⟨_, _, _, hFrame, -⟩ := hInv.opened b h
  have hLt := (List.getElem?_eq_some_iff.mp hFrame).1
  omega

theorem opened_mono (hPre : c.received <+: c'.received)
    (h : ∃ k frame, b.2 = k + 1 ∧ c.received[k]? = some frame ∧
      frame.frameType = .openStream ∧ frame.streamId = b.1) :
    ∃ k frame, b.2 = k + 1 ∧ c'.received[k]? = some frame ∧
      frame.frameType = .openStream ∧ frame.streamId = b.1 := by
  obtain ⟨k, frame, hBorn, hFrame, hBoth⟩ := h
  obtain ⟨_, hRest⟩ := hPre
  refine ⟨k, frame, hBorn, ?_, hBoth⟩
  rw [← hRest, getElem?_append_left (List.getElem?_eq_some_iff.mp hFrame).1]
  exact hFrame

/-- **Every Agent step keeps `Spawned`.** -/
theorem spawned_step (hInv : c.Spawned) (h : SessionEffect c turn next next' c') : c'.Spawned := by
  have hSide := h.fixed.1.trans hInv.side
  cases h.births with
  | none hBirths hReceived =>
    refine ⟨hSide, fun b hb => ?_, hBirths ▸ hInv.ordered⟩
    exact opened_mono hReceived (hInv.opened b (hBirths ▸ hb))
  | edge hEdge => exact absurd (hEdge.symm.trans hInv.side) (by simp)
  | agent _ frame hType hBirths hReceived =>
    refine ⟨hSide, fun b hb => ?_, ?_⟩
    · rw [hBirths] at hb
      rcases mem_append.mp hb with hb | hb
      · exact opened_mono (hReceived ▸ prefix_append _ _) (hInv.opened b hb)
      · rw [mem_singleton.mp hb]
        exact ⟨c.received.length, frame, by simp [hReceived], by simp [hReceived], hType, rfl⟩
    · rw [hBirths, pairwise_append]
      refine ⟨hInv.ordered, pairwise_singleton _ _, fun a ha b hb => ?_⟩
      have hLe := hInv.born_le ha
      rw [mem_singleton.mp hb, hReceived, length_append, length_singleton]
      omega

end Core

end TunnelProxy.Mux
