import TunnelProxy.Mux.Sending
import TunnelProxy.Mux.Receiving

/-!
# Delivery between an Edge session and an Agent session

`System` composes the two sessions over a reliable, ordered transport. Its
invariant `System.Coherent` collects what each side guarantees for any peer and
adds what the composition gives:

* the frames a side received are a prefix of the frames the other side started to
  write (`Core.Link.received`);
* every stream id on the wire belongs to a task of the Edge;
* a task never finds frames on its stream that are older than itself, so what it
  gets is a prefix of what the task of the same id on the other side sent.

From it follows the end-to-end statement, for every run and every stream id:

* `streams_delivered` — in both directions the bytes written to a socket are a prefix
  of the bytes read from the other one, and `Graceful` means all of them.
* `streams_isolated` — whatever the peer of a side sends, its streams never mix.
-/

namespace TunnelProxy.Mux

open Protocol Std Transition List Option Outbound Pipeline EdgeSession

variable {frame : Frame}

namespace Core

/-! ## The transport -/

/-- The transport from `a` to `b` holds what `a` wrote and `b` has not been given. -/
def Link (a b : Core) : Prop :=
  a.pipe.bytesOut = b.bytesIn ++ b.incoming ++ a.pipe.outgoing

/-- A step of one side that moves no byte between the sides. -/
structure Alone (c c' : Core) : Prop where
  out : ∃ bytes, c'.pipe.bytesOut = c.pipe.bytesOut ++ bytes ∧
    c'.pipe.outgoing = c.pipe.outgoing ++ bytes
  taken : c'.bytesIn ++ c'.incoming = c.bytesIn ++ c.incoming

variable {a b c c' : Core} {o : Outbound} {next : UInt32} {t : StreamTask}

theorem Link.sender {a' : Core} (h : Link a b) (hAlone : Alone a a') : Link a' b := by
  obtain ⟨_, hOut, hGoing⟩ := hAlone.out
  unfold Link at h ⊢
  rw [hOut, hGoing, h, append_assoc]

theorem Link.receiver {b' : Core} (h : Link a b) (hAlone : Alone b b') : Link a b' := by
  unfold Link at h ⊢
  rw [hAlone.taken, h]

theorem alone_of_eq (hPipe : c'.pipe = c.pipe)
    (hTaken : c'.bytesIn ++ c'.incoming = c.bytesIn ++ c.incoming) : Alone c c' where
  out := ⟨[], by simp [hPipe], by simp [hPipe]⟩
  taken := hTaken

theorem alone_of_push
    (hPush : c.pipe.pushControl o = some c'.pipe ∨ c.pipe.pushData o = some c'.pipe)
    (hTaken : c'.bytesIn ++ c'.incoming = c.bytesIn ++ c.incoming) : Alone c c' where
  out := by
    rcases hPush with hPush | hPush
    · obtain ⟨-, hPipe⟩ := pushControl_eq hPush
      exact ⟨[], by simp [hPipe], by simp [hPipe]⟩
    · obtain ⟨-, hPipe⟩ := pushData_eq hPush
      exact ⟨[], by simp [hPipe], by simp [hPipe]⟩
  taken := hTaken

theorem alone_of_stops (h : Stops c c') : Alone c c' :=
  alone_of_eq h.pipe (by rw [h.bytesIn, h.incoming])

theorem Alone.trans {c'' : Core} (h : Alone c c') (h' : Alone c' c'') : Alone c c'' where
  out := by
    obtain ⟨xs, hOut, hGoing⟩ := h.out
    obtain ⟨ys, hOut', hGoing'⟩ := h'.out
    exact ⟨xs ++ ys, by rw [hOut', hOut, append_assoc], by
      rw [hGoing', hGoing, append_assoc]⟩
  taken := h'.taken.trans h.taken

theorem step_alone {a : CoreAction} (hTransfer : System.isTransfer a = false)
    (h : c.step a = some c') : Alone c c' := by
  cases step_effect h with
  | task | closed | abort | arriveEof => exact alone_of_eq rfl rfl
  | control _ _ _ _ _ _ _ _ hPush => exact alone_of_push (.inl hPush) rfl
  | data _ _ _ _ _ _ _ _ hPush => exact alone_of_push (.inr hPush) rfl
  | writer _ _ hStep =>
    refine ⟨?_, rfl⟩
    cases Pipeline.step_effect hStep with
    | startControl | startData | schedule | stop =>
      exact ⟨[], by simp [stop], by simp [stop]⟩
    | move _ hSame => exact ⟨[], by simp [hSame.bytesOut], by simp [hSame.outgoing]⟩
    | wrote n rest _ _ _ _ _ hSame => exact ⟨rest.take n, hSame.bytesOut, hSame.outgoing⟩
  | arrive | depart => simp [System.isTransfer] at hTransfer

/-- A session step that is no transfer moves no byte between the sides. -/
theorem SessionEffect.alone {turn : Turn} {next' : UInt32}
    (hTurn : ∀ a, turn = .core a → System.isTransfer a = false)
    (h : SessionEffect c turn next next' c') : Alone c c' := by
  cases h with
  | core a _ hCore hStep => exact step_alone (hTurn a hCore) hStep
  | same | ping => exact alone_of_eq rfl rfl
  | read _ _ c₁ _ _ hRead hHandled =>
    have hFirst : Alone c c₁ := by
      obtain ⟨-, -, -, -, rfl⟩ := read_eq hRead
      exact alone_of_eq rfl (by simp)
    refine hFirst.trans ?_
    rcases hHandled.outside with hStop | ⟨_, _, _, rfl⟩
    · exact alone_of_stops hStop
    · exact alone_of_eq rfl rfl
  | spawn =>
    unfold Core.spawn
    split_ifs <;> exact alone_of_eq rfl rfl
  | event streamId rest _ _ _ _ hNext =>
    have hFirst : Alone c (removeStream { c with events := rest } streamId) :=
      alone_of_eq rfl rfl
    rcases hNext with rfl | hStop
    · exact hFirst
    · exact hFirst.trans (alone_of_stops hStop)
  | sent _ pipe _ hPush _ hNext =>
    have hFirst : Alone c { c with pipe := pipe, dispatch := .select } :=
      alone_of_push (.inl hPush) rfl
    rcases hNext with rfl | hStop
    · exact hFirst
    · exact hFirst.trans (alone_of_stops hStop)
  | stop _ hStop => exact alone_of_stops hStop

/-! ## What a side guarantees whatever its peer does -/

structure Sound (c : Core) : Prop where
  tasks : c.TasksOk
  sent : c.Sent
  received : c.Received

theorem sound_new (side : Side) (limits : SessionLimits) : (new side limits).Sound :=
  ⟨tasksOk_new .., sent_new .., by constructor <;> simp [new]⟩

theorem sound_step {turn : Turn} {next' : UInt32} (hInv : c.Sound)
    (h : SessionEffect c turn next next' c') : c'.Sound :=
  ⟨tasksOk_step hInv.tasks h, sent_step hInv.sent hInv.tasks h,
    received_step hInv.received hInv.tasks h⟩

theorem sound_side_step {side : Side} {turn : Turn} {next' : UInt32}
    (hInv : c.side = side ∧ c.Sound) (h : SessionEffect c turn next next' c') :
    c'.side = side ∧ c'.Sound :=
  ⟨h.fixed.1.trans hInv.1, sound_step hInv.2 h⟩

/-- The two frame types that carry what a task read. -/
def carriesData (frame : Frame) : Bool :=
  frame.frameType = .data || frame.frameType = .endStream

def carriesDataOf (s : StreamId) (frame : Frame) : Bool :=
  carriesData frame && frame.streamId = s

/-- **Frames cross the transport in order.** -/
theorem Link.received (h : Link a b) (ha : a.Sound) (hb : b.Sound) :
    b.received <+: a.pipe.startedFrames := by
  refine encodeAll_prefix ?_
  have hRead : b.bytesIn <+: a.pipe.bytesOut := by
    rw [h, append_assoc]
    exact prefix_append _ _
  exact hb.received.cut.trans (hRead.trans ha.sent.framed.cut)

/-- An accepted data frame belongs to the stream of the task that sent it. -/
theorem Sound.sentData_id (hInv : c.Sound) (ho : o ∈ c.pipe.sentData) :
    ∃ i t, o.origin = some i ∧ c.tasks[i]? = some t ∧ o.isDataOf t.id ∧ o.frame ∈ t.sentData := by
  obtain ⟨i, t, hOrigin, hTask⟩ := hInv.sent.dataOrigin o ho
  have hFrame : o.frame ∈ t.sentData := by
    rw [← hInv.sent.data i t hTask]
    exact mem_map_of_mem (mem_filter.mpr ⟨ho, by simp [hOrigin]⟩)
  have hSends := (hInv.tasks.getElem hTask).sends
  obtain ⟨hId, hType⟩ := hSends.own _ (hSends.sent.subset hFrame)
  refine ⟨i, t, hOrigin, hTask, ?_, hFrame⟩
  simpa [isDataOf, isData, Outbound.streamId, hId] using hType

theorem Sound.started_data (hInv : c.Sound) (h : o ∈ c.pipe.started) (hData : o.isData) :
    o ∈ c.pipe.sentData := by
  have hOf : o.isDataOf o.streamId = true := by simp [isDataOf, hData]
  have hMem := (hInv.sent.fifo.dataPrefix o.streamId).subset (mem_filter.mpr ⟨h, hOf⟩)
  exact (mem_filter.mp hMem).1

theorem Sound.started_control (hInv : c.Sound) (h : o ∈ c.pipe.started) (hData : o.isData = false) :
    o ∈ c.pipe.sentControl :=
  hInv.sent.fifo.controlPrefix.subset (mem_filter.mpr ⟨h, by simp [hData]⟩)

/-- No byte passes from one stream to another. -/
structure Isolated (c : Core) : Prop where
  written : ∀ t ∈ c.tasks, t.socketWritten <+: StreamTask.dataBytes (c.addressed t)
  read : ∀ t ∈ c.tasks, StreamTask.dataBytes t.sentData <+: t.socketRead
  own : ∀ o ∈ c.pipe.started, o.isData → ∃ t ∈ c.tasks, o.isDataOf t.id ∧ o.frame ∈ t.sentData

theorem Sound.isolated (hInv : c.Sound) : c.Isolated := by
  have hMono : ∀ {xs ys : List Frame}, xs <+: ys →
      StreamTask.dataBytes xs <+: StreamTask.dataBytes ys := by
    rintro _ _ ⟨_, rfl⟩
    rw [StreamTask.dataBytes_append]
    exact prefix_append _ _
  constructor
  · intro t ht
    -- a task consumes what its stream was addressed, in order, and nothing else
    refine (hInv.tasks.tasks t ht).receives.written.trans (hMono ?_)
    exact (prefix_append _ _).trans (hInv.received.inOrder t ht)
  · intro t ht
    have hSends := (hInv.tasks.tasks t ht).sends
    exact hSends.bytes ▸ hMono hSends.sent
  · intro o ho hData
    -- the writer starts only what a task has sent
    obtain ⟨_, t, -, hTask, hOf⟩ := hInv.sentData_id (hInv.started_data ho hData)
    exact ⟨t, mem_of_getElem? hTask, hOf⟩

/-- The stream of a started frame has a task, or the peer named it first. -/
theorem Sound.started_streamId (hInv : c.Sound) (h : frame ∈ c.pipe.startedFrames) :
    (∃ t ∈ c.tasks, t.id = frame.streamId) ∨ frame.streamId = StreamId.control ∨
      ∃ g ∈ c.received, g.streamId = frame.streamId := by
  obtain ⟨o, ho, rfl⟩ := mem_map.mp h
  cases hData : o.isData with
  | true =>
    obtain ⟨_, t, -, hTask, hOf, -⟩ := hInv.sentData_id (hInv.started_data ho hData)
    simp only [isDataOf, Bool.and_eq_true, decide_eq_true_eq] at hOf
    exact .inl ⟨t, mem_of_getElem? hTask, hOf.2.symm⟩
  | false =>
    have hSent := hInv.started_control ho hData
    cases hOrigin : o.origin with
    | none => exact .inr (hInv.sent.answers o hSent hOrigin).stream
    | some i =>
      obtain ⟨t, hTask, hId, -⟩ := hInv.sent.controlOrigin o hSent i hOrigin
      exact .inl ⟨t, mem_of_getElem? hTask, hId.symm⟩

/-- An `OPEN_STREAM` on the wire comes from a task of that id. -/
theorem Sound.started_open (hInv : c.Sound) (h : frame ∈ c.pipe.startedFrames)
    (hType : frame.frameType = .openStream) : ∃ t ∈ c.tasks, t.id = frame.streamId := by
  obtain ⟨o, ho, rfl⟩ := mem_map.mp h
  have hSent := hInv.started_control ho (by simp [isData, hType])
  cases hOrigin : o.origin with
  | none => exact absurd hType (hInv.sent.answers o hSent hOrigin).type.1
  | some i =>
    obtain ⟨t, hTask, hId, -⟩ := hInv.sent.controlOrigin o hSent i hOrigin
    exact ⟨t, mem_of_getElem? hTask, hId.symm⟩

/-! ## One stream, one task -/

def isOpenFrame (frame : Frame) : Bool := frame.frameType = .openStream

/-- A side whose tasks have different ids opens no stream twice. -/
theorem Sound.opens_once (hInv : c.Sound)
    (hInj : ∀ (i j : Nat) (t u : StreamTask), c.tasks[i]? = some t → c.tasks[j]? = some u →
      t.id = u.id → i = j) :
    ((c.pipe.startedFrames.filter isOpenFrame).map Frame.streamId).Nodup := by
  have hSub : c.pipe.started.filter isOpen <+: c.pipe.sentControl.filter isOpen := by
    have hControl : (c.pipe.started.filter (!·.isData)).filter isOpen =
        c.pipe.started.filter isOpen := by
      rw [List.filter_filter]
      refine filter_congr fun o _ => ?_
      cases hOpen : isOpen o with
      | false => simp
      | true =>
        have hType : o.frame.frameType = .openStream := by simpa [isOpen] using hOpen
        simp [isData, hType]
    exact hControl ▸ hInv.sent.fifo.controlPrefix.filter isOpen
  -- Opens come from tasks, and tasks are told apart by their ids.
  have hOrigin : ∀ o ∈ c.pipe.sentControl.filter isOpen,
      ∃ i t, o.origin = some i ∧ c.tasks[i]? = some t ∧ o.streamId = t.id := by
    intro o ho
    obtain ⟨hSent, hOpen⟩ := mem_filter.mp ho
    cases hOrigin : o.origin with
    | none =>
      have hType := (hInv.sent.answers o hSent hOrigin).type.1
      simp [isOpen, hType] at hOpen
    | some i =>
      obtain ⟨t, hTask, hId, -⟩ := hInv.sent.controlOrigin o hSent i hOrigin
      exact ⟨i, t, rfl, hTask, hId⟩
  have hIds : ((c.pipe.sentControl.filter isOpen).map Outbound.streamId).Nodup := by
    have hOnce := hInv.sent.openOnce
    rw [Nodup, pairwise_map] at hOnce ⊢
    refine hOnce.imp_of_mem fun {a b} ha hb hNe hEq => hNe ?_
    obtain ⟨i, t, hi, hTask, hIdT⟩ := hOrigin a ha
    obtain ⟨j, u, hj, hTask', hIdU⟩ := hOrigin b hb
    rw [hi, hj, hInj i j t u hTask hTask' (by rw [← hIdT, ← hIdU, hEq])]
  have hFrames : (c.pipe.startedFrames.filter isOpenFrame).map Frame.streamId =
      (c.pipe.started.filter isOpen).map Outbound.streamId := by
    rw [startedFrames, List.filter_map, List.map_map]
    rfl
  rw [hFrames]
  exact hIds.sublist (hSub.sublist.map _)

/-- If no stream is opened twice, no two Agent tasks share an id. -/
theorem Spawned.nodup_ids (hInv : c.Spawned)
    (hOnce : ((c.received.filter isOpenFrame).map Frame.streamId).Nodup) :
    (c.births.map Prod.fst).Nodup := by
  rw [Nodup, pairwise_map]
  refine hInv.ordered.imp_of_mem fun {a b} ha hb hLt hEq => ?_
  obtain ⟨_, _, _, hf, hOpen, hId⟩ := hInv.opened a ha
  obtain ⟨_, _, _, hg, hOpen', hId'⟩ := hInv.opened b hb
  have hSame := IndexMap.eq_of_nodup_keys hOnce hf hg (by simp [isOpenFrame, hOpen])
    (by simp [isOpenFrame, hOpen']) (by rw [hId, hId', hEq])
  omega

/-! ## Tasks are younger than the frames they get -/

/-- What was received before a task was spawned satisfies `Q` for the task's id. -/
def Before (Q : StreamId → Frame → Prop) (c : Core) : Prop :=
  ∀ b ∈ c.births, ∀ frame ∈ c.received.take b.2, Q b.1 frame

/-- No task finds data on its stream that is older than itself. -/
def Fresh (c : Core) : Prop := c.Before fun id frame => carriesDataOf id frame = false

/-- No task finds any frame on its stream that is older than itself. -/
def Unheard (c : Core) : Prop := c.Before fun id frame => frame.streamId ≠ id

theorem Unheard.fresh (h : c.Unheard) : c.Fresh := fun b hb frame hFrame => by
  simp [carriesDataOf, h b hb frame hFrame]

/-- `Before` has to be shown for a new task only. -/
theorem Births.before {Q : StreamId → Frame → Prop} (h : Births c next c') (hInv : c.Before Q)
    (hBorn : ∀ b ∈ c.births, b.2 ≤ c.received.length)
    (hEdge : c.side = .edge → next ≠ StreamId.control → ∀ frame ∈ c.received, Q next frame)
    (hAgent : c.side = .agent → ∀ b, c'.births = c.births ++ [b] →
      ∀ frame ∈ c'.received, Q b.1 frame) : c'.Before Q := by
  -- What was received before an old task was spawned does not change.
  have hOld : c.received <+: c'.received → ∀ b ∈ c.births,
      ∀ frame ∈ c'.received.take b.2, Q b.1 frame := by
    rintro ⟨_, hRest⟩ b hb frame hFrame
    rw [← hRest, take_append_of_le_length (hBorn b hb)] at hFrame
    exact hInv b hb frame hFrame
  intro b hb frame hFrame
  cases h with
  | none hBirths hReceived => exact hOld hReceived b (hBirths ▸ hb) frame hFrame
  | edge hSide hId hBirths hReceived =>
    rw [hBirths] at hb
    rcases mem_append.mp hb with hb | hb
    · exact hOld (hReceived ▸ prefix_rfl) b hb frame hFrame
    · rw [mem_singleton.mp hb] at hFrame ⊢
      exact hEdge hSide hId frame (hReceived ▸ mem_of_mem_take hFrame)
  | agent hSide _ _ hBirths hReceived =>
    rw [hBirths] at hb
    rcases mem_append.mp hb with hOldMem | hNew
    · exact hOld (hReceived ▸ prefix_append _ _) b hOldMem frame hFrame
    · have hEq := mem_singleton.mp hNew
      exact hAgent hSide b (hEq ▸ hBirths) frame (mem_of_mem_take hFrame)

/-! ## One direction of one stream -/

/-- The data a task consumed starts the data its session received on its stream. -/
theorem Sound.consumed_data (hInv : c.Sound) (hFresh : c.Fresh) (ht : t ∈ c.tasks) :
    t.consumed.filter carriesData <+: c.received.filter (carriesDataOf t.id) := by
  have hGot : t.consumed <+: c.addressed t :=
    (prefix_append _ _).trans (hInv.received.inOrder t ht)
  have hData : (c.addressed t).filter carriesData =
      (c.received.drop t.born).filter (carriesDataOf t.id) := by
    rw [addressed, streamFrames, List.filter_filter]
    refine filter_congr fun frame _ => ?_
    unfold carriesDataOf
    cases hCarries : carriesData frame with
    | false => simp
    | true =>
      have hForwards : forwards c.side frame = true := by
        simp only [carriesData, Bool.or_eq_true, decide_eq_true_eq] at hCarries
        rcases hCarries with hType | hType <;> simp [forwards, hType]
      simp [hForwards]
  have hBefore : (c.received.take t.born).filter (carriesDataOf t.id) = [] := by
    rw [filter_eq_nil_iff]
    intro frame hFrame
    simp [hFresh _ (mem_births ht) frame hFrame]
  have hSplit : c.received.filter (carriesDataOf t.id) =
      (c.received.drop t.born).filter (carriesDataOf t.id) := by
    rw [← take_append_drop t.born c.received, filter_append, hBefore,
      take_append_drop, nil_append]
  rw [hSplit, ← hData]
  exact hGot.filter carriesData

/-- **One direction.** The data a task consumed starts the data the other side
accepted for its stream. -/
theorem Link.delivered (h : Link a b) (ha : a.Sound) (hb : b.Sound) (hFresh : b.Fresh)
    (ht : t ∈ b.tasks) :
    t.consumed.filter carriesData <+:
      (a.pipe.sentData.filter (·.isDataOf t.id)).map Outbound.frame := by
  have hStarted : a.pipe.startedFrames.filter (carriesDataOf t.id) =
      (a.pipe.started.filter (·.isDataOf t.id)).map Outbound.frame := by
    rw [startedFrames, List.filter_map]
    rfl
  calc t.consumed.filter carriesData
      <+: b.received.filter (carriesDataOf t.id) := hb.consumed_data hFresh ht
    _ <+: a.pipe.startedFrames.filter (carriesDataOf t.id) := (h.received ha hb).filter _
    _ = (a.pipe.started.filter (·.isDataOf t.id)).map Outbound.frame := hStarted
    _ <+: (a.pipe.sentData.filter (·.isDataOf t.id)).map Outbound.frame :=
        (ha.sent.fifo.dataPrefix t.id).map _

/-- The data accepted for a stream is what its one task sent. -/
theorem Sound.sentData_of (hInv : c.Sound) (hIds : (c.births.map Prod.fst).Nodup)
    (ht : t ∈ c.tasks) :
    (c.pipe.sentData.filter (·.isDataOf t.id)).map Outbound.frame = t.sentData := by
  obtain ⟨i, hTask⟩ := mem_iff_getElem?.mp ht
  rw [← hInv.sent.data i t hTask]
  congr 1
  refine filter_congr fun o ho => ?_
  obtain ⟨j, u, hOrigin, hTask', hOf, -⟩ := hInv.sentData_id ho
  by_cases hij : j = i
  · subst hij
    rw [hTask, Option.some.injEq] at hTask'
    subst hTask'
    simp [hOf, hOrigin]
  · have hNodup : ((c.tasks.filter fun _ => true).map StreamTask.id).Nodup := by
      simpa [births, Function.comp_def] using hIds
    have hNe : t.id ≠ u.id := fun hEq =>
      hij (IndexMap.eq_of_nodup_keys hNodup hTask' hTask rfl rfl hEq.symm)
    simp [isDataOf_ne hOf hNe, hOrigin, hij]

theorem Sound.sentData_none (hInv : c.Sound) {s : StreamId} (hNone : ∀ t ∈ c.tasks, t.id ≠ s) :
    c.pipe.sentData.filter (·.isDataOf s) = [] := by
  rw [filter_eq_nil_iff]
  intro _ ho hOf
  obtain ⟨_, t, -, hTask, hOf', -⟩ := hInv.sentData_id ho
  rw [isDataOf_ne hOf' (hNone t (mem_of_getElem? hTask)).symm] at hOf
  cases hOf

/-! ### Bytes -/

def tasksOf (c : Core) (s : StreamId) : List StreamTask := c.tasks.filter (·.id = s)

/-- The bytes read from, and written to, the socket of a stream. -/
def readOf (c : Core) (s : StreamId) : List UInt8 := (c.tasksOf s).flatMap StreamTask.socketRead

@[inherit_doc readOf]
def writtenOf (c : Core) (s : StreamId) : List UInt8 :=
  (c.tasksOf s).flatMap StreamTask.socketWritten

theorem tasksOf_cases (hIds : (c.births.map Prod.fst).Nodup) (s : StreamId) :
    (∃ t ∈ c.tasks, t.id = s ∧ c.tasksOf s = [t]) ∨
      (∀ t ∈ c.tasks, t.id ≠ s) ∧ c.tasksOf s = [] := by
  by_cases hTask : ∃ t ∈ c.tasks, t.id = s
  · obtain ⟨t, ht, rfl⟩ := hTask
    refine .inl ⟨t, ht, rfl, IndexMap.filter_key_eq ?_ ht⟩
    simpa [births, Function.comp_def] using hIds
  · have hNone : ∀ t ∈ c.tasks, t.id ≠ s := fun t ht hEq => hTask ⟨t, ht, hEq⟩
    refine .inr ⟨hNone, ?_⟩
    rw [tasksOf, filter_eq_nil_iff]
    intro t ht
    simpa using hNone t ht

theorem dataBytes_carriesData (frames : List Frame) :
    StreamTask.dataBytes (frames.filter carriesData) = StreamTask.dataBytes frames := by
  unfold StreamTask.dataBytes
  rw [List.filter_filter]
  congr 1
  refine filter_congr fun frame _ => ?_
  cases hType : frame.frameType <;> simp [carriesData, hType]

/-- **One direction, in bytes.** -/
theorem Link.bytes_delivered (h : Link a b) (ha : a.Sound) (hb : b.Sound) (hFresh : b.Fresh)
    (haIds : (a.births.map Prod.fst).Nodup) (hbIds : (b.births.map Prod.fst).Nodup) (s : StreamId) :
    b.writtenOf s <+: a.readOf s := by
  rcases tasksOf_cases hbIds s with ⟨t, ht, rfl, hOf⟩ | ⟨-, hOf⟩
  · have hWritten := (hb.tasks.tasks t ht).receives.written
    have hDelivered := h.delivered ha hb hFresh ht
    rw [writtenOf, readOf, hOf, flatMap_singleton]
    rw [← dataBytes_carriesData] at hWritten
    rcases tasksOf_cases haIds t.id with ⟨u, hu, hId, hOf'⟩ | ⟨hNone, hOf'⟩
    · rw [hOf', flatMap_singleton]
      rw [← hId, ha.sentData_of haIds hu] at hDelivered
      have hSends := (ha.tasks.tasks u hu).sends
      rw [← hSends.bytes]
      obtain ⟨_, hAll⟩ := hDelivered.trans hSends.sent
      rw [← hAll, StreamTask.dataBytes_append]
      exact hWritten.trans (prefix_append _ _)
    · rw [ha.sentData_none hNone, map_nil, prefix_nil] at hDelivered
      rw [hDelivered] at hWritten
      exact hWritten.trans nil_prefix
  · rw [writtenOf, hOf]
    exact nil_prefix

/-- **A task that ended gracefully wrote everything.** -/
theorem Link.graceful (h : Link a b) (ha : a.Sound) (hb : b.Sound) (hFresh : b.Fresh)
    (haIds : (a.births.map Prod.fst).Nodup) (ht : t ∈ b.tasks)
    (hGraceful : t.completion = some .graceful) :
    ∃ u ∈ a.tasks, u.id = t.id ∧ u.localEnded ∧ t.socketWritten = u.socketRead := by
  obtain ⟨hWritten, hPeer, -⟩ := (hb.tasks.tasks t ht).receives.graceful hGraceful
  obtain ⟨frame, hFrame, hEnd⟩ := (hb.tasks.tasks t ht).receives.peerEnd hPeer
  have hDelivered := h.delivered ha hb hFresh ht
  have hMem : frame ∈ t.consumed.filter carriesData :=
    mem_filter.mpr ⟨hFrame, by simp [carriesData, hEnd]⟩
  rcases tasksOf_cases haIds t.id with ⟨u, hu, hId, -⟩ | ⟨hNone, -⟩
  · refine ⟨u, hu, hId, ?_⟩
    rw [← hId, ha.sentData_of haIds hu] at hDelivered
    have hSends := (ha.tasks.tasks u hu).sends
    obtain ⟨hEnded, hAll⟩ :=
      hSends.sentData_of_end ⟨frame, hDelivered.subset hMem, hEnd⟩
    obtain ⟨_, hProduced, hOnlyData⟩ := hSends.ended hEnded
    refine ⟨hEnded, ?_⟩
    -- The END is the last frame of the sender, so whoever has it has all before it.
    have hEq : t.consumed.filter carriesData = u.produced := by
      rw [hAll, hProduced] at hDelivered
      rcases prefix_concat_iff.mp hDelivered with hEq | hPre
      · rw [hEq, hProduced]
      · have hType := hOnlyData frame (hPre.subset hMem)
        simp [hEnd] at hType
    rw [hWritten, ← dataBytes_carriesData, hEq, hSends.bytes]
  · rw [ha.sentData_none hNone, map_nil, prefix_nil] at hDelivered
    rw [hDelivered] at hMem
    cases hMem

end Core

/-! ## The composed system -/

namespace System

/-- A stream id that the Edge has given out, or the reserved one. -/
def Known (s : System) (id : StreamId) : Prop :=
  id = StreamId.control ∨ ∃ b ∈ s.edge.core.births, b.1 = id

structure Coherent (s : System) : Prop where
  numbered : s.edge.Numbered
  spawned : s.agent.core.Spawned
  edge : s.edge.core.Sound
  agent : s.agent.core.Sound
  toAgent : Core.Link s.edge.core s.agent.core
  toEdge : Core.Link s.agent.core s.edge.core
  edgeKnown : ∀ frame ∈ s.edge.core.received, s.Known frame.streamId
  agentKnown : ∀ frame ∈ s.agent.core.received, s.Known frame.streamId
  edgeUnheard : s.edge.core.Unheard
  agentFresh : s.agent.core.Fresh

theorem coherent_new (edgeLimits agentLimits : SessionLimits) (commandCapacity : Nat)
    (hasShutdown : Bool) :
    (new edgeLimits agentLimits commandCapacity hasShutdown).Coherent where
  numbered := numbered_new ..
  spawned := by constructor <;> simp [new, AgentSession.new, Core.new, Core.births]
  edge := Core.sound_new ..
  agent := Core.sound_new ..
  toAgent := rfl
  toEdge := rfl
  edgeKnown f h := by simp [new, EdgeSession.new, Core.new] at h
  agentKnown f h := by simp [new, AgentSession.new, Core.new] at h
  edgeUnheard b h := by simp [new, EdgeSession.new, Core.new, Core.births] at h
  agentFresh b h := by simp [new, AgentSession.new, Core.new, Core.births] at h

theorem nodup_edge_ids {s : EdgeSession} (hInv : s.Numbered) :
    (s.core.births.map Prod.fst).Nodup := by
  rw [Core.births, List.map_map, Nodup, pairwise_map, pairwise_iff_getElem]
  intro _ _ hi hj _ hEq
  have hSame := hInv.id_inj (getElem?_eq_getElem hi) (getElem?_eq_getElem hj) hEq
  omega

/-- The Edge opens no stream twice, so neither does the Agent answer one twice. -/
theorem nodup_agent_ids {edge : EdgeSession} {agent : Core} (hNumbered : edge.Numbered)
    (hEdge : edge.core.Sound) (hAgent : agent.Sound) (hSpawned : agent.Spawned)
    (hLink : Core.Link edge.core agent) : (agent.births.map Prod.fst).Nodup := by
  have hOnce := hEdge.opens_once fun i j t u hi hj => hNumbered.id_inj hi hj
  refine hSpawned.nodup_ids (hOnce.sublist ?_)
  exact ((hLink.received hEdge hAgent).sublist.filter _).map _

variable {s s' : System}

/-- Every frame the Edge received names a stream that the Agent had heard of. -/
theorem known_toEdge {edge : Core} (hAgent : s.agent.core.Sound) (hSpawned : s.agent.core.Spawned)
    (hEdge : edge.Sound) (hLink : Core.Link s.agent.core edge)
    (hKnown : ∀ frame ∈ s.agent.core.received, s.Known frame.streamId) :
    ∀ frame ∈ edge.received, s.Known frame.streamId := by
  intro _ hFrame
  have hStarted := (hLink.received hAgent hEdge).subset hFrame
  rcases hAgent.started_streamId hStarted with ⟨t, ht, hId⟩ | hControl | ⟨g, hg, hId⟩
  · obtain ⟨_, opening, -, hOpening, -, hOpenId⟩ := hSpawned.opened _ (Core.mem_births ht)
    rw [← hId, ← show opening.streamId = t.id from hOpenId]
    exact hKnown opening (mem_of_getElem? hOpening)
  · exact .inl hControl
  · rw [← hId]
    exact hKnown g hg

theorem Known.mono {id : StreamId} (h : s.Known id)
    (hSub : s.edge.core.births ⊆ s'.edge.core.births) : s'.Known id :=
  h.imp_right fun ⟨b, hb, hId⟩ => ⟨b, hSub hb, hId⟩

theorem births_subset {c c' : Core} {next : UInt32} (h : Core.Births c next c') :
    c.births ⊆ c'.births := by
  cases h with
  | none hBirths => exact hBirths ▸ Subset.refl _
  | edge _ _ hBirths | agent _ _ _ hBirths => exact hBirths ▸ subset_append_left _ _

theorem born_le {c : Core} (hInv : c.Sound) : ∀ b ∈ c.births, b.2 ≤ c.received.length := by
  intro _ hb
  obtain ⟨t, ht, rfl⟩ := mem_map.mp hb
  exact hInv.received.born t ht

/-- **An Edge step keeps the system coherent.** -/
theorem Coherent.edgeStep (hInv : s.Coherent) {a : EdgeAction} {edge : EdgeSession}
    (hAlone : edgeAlone a) (h : s.edge.step a = some edge) : Coherent { s with edge } := by
  have hEffect := EdgeSession.step_effect hInv.numbered.side h
  have hSound := Core.sound_step hInv.edge hEffect
  have hMoved : Core.Alone s.edge.core edge.core := hEffect.alone fun b hTurn => by
    cases a <;> cases hTurn
    simpa [edgeAlone] using hAlone
  have hMono := births_subset hEffect.births
  have hToEdge : Core.Link s.agent.core edge.core := hInv.toEdge.receiver hMoved
  exact { hInv with
    numbered := numbered_step hInv.numbered h
    edge := hSound
    toAgent := hInv.toAgent.sender hMoved
    toEdge := hToEdge
    edgeKnown := fun frame hFrame => (known_toEdge hInv.agent hInv.spawned hSound hToEdge
      hInv.agentKnown frame hFrame).mono hMono
    agentKnown := fun frame hFrame => (hInv.agentKnown frame hFrame).mono hMono
    edgeUnheard := by
      refine hEffect.births.before hInv.edgeUnheard (born_le hInv.edge) ?_ ?_
      · -- A new stream has a number that no frame on the wire can have yet.
        intro _ hId frame hFrame
        have hNext := hInv.numbered.next.resolve_left hId
        rintro hEq
        rcases hInv.edgeKnown frame hFrame with hControl | ⟨_, hb, hKnown⟩
        · exact hId (hEq ▸ hControl)
        · obtain ⟨t, ht, rfl⟩ := mem_map.mp hb
          obtain ⟨i, hTask⟩ := mem_iff_getElem?.mp ht
          have hNum := hInv.numbered.ids i t hTask
          have hLt := (List.getElem?_eq_some_iff.mp hTask).1
          rw [show t.id = s.edge.nextStreamId from hKnown.trans hEq] at hNum
          omega
      · intro hAgent
        exact absurd (hInv.numbered.side.symm.trans hAgent) (by simp) }

/-- Data on a stream shows that the Agent has a task for it: the Edge reads its ingress
only after it has consumed the acknowledgement. -/
theorem agent_task_of_data (hInv : s.Coherent)
    (hStarted : frame ∈ s.edge.core.pipe.startedFrames) (hData : Core.carriesData frame) :
    ∃ b ∈ s.agent.core.births, b.1 = frame.streamId := by
  obtain ⟨_, ho, rfl⟩ := mem_map.mp hStarted
  obtain ⟨_, t, -, hTask, hOf, hSent⟩ := hInv.edge.sentData_id (hInv.edge.started_data ho hData)
  simp only [isDataOf, Bool.and_eq_true, decide_eq_true_eq] at hOf
  have ht := mem_of_getElem? hTask
  have hOk := hInv.edge.tasks.getElem hTask
  have hProduced : t.produced ≠ [] := ne_nil_of_mem (hOk.sends.sent.subset hSent)
  obtain ⟨ack, hAck, hType⟩ :=
    (hOk.opens.produced hProduced).2 (hOk.side.trans hInv.numbered.side)
  -- The acknowledgement was received on this stream, so the Agent started it.
  have hGot : ack ∈ s.edge.core.addressed t :=
    (hInv.edge.received.inOrder t ht).subset (mem_append_left _ hAck)
  obtain ⟨hMem, hMatch⟩ := mem_filter.mp hGot
  have hId : ack.streamId = t.id := by
    simp only [Bool.and_eq_true, decide_eq_true_eq] at hMatch
    exact hMatch.1
  have hWire := (hInv.toEdge.received hInv.agent hInv.edge).subset (mem_of_mem_drop hMem)
  obtain ⟨_, hu, hUId⟩ := hInv.agent.started_open hWire hType
  exact ⟨_, Core.mem_births hu, (hUId.trans hId).trans hOf.2.symm⟩

/-- **An Agent step keeps the system coherent.** -/
theorem Coherent.agentStep (hInv : s.Coherent) {a : AgentAction} {agent : AgentSession}
    (hAlone : agentAlone a) (h : s.agent.step a = some agent) : Coherent { s with agent } := by
  have hEffect := AgentSession.step_effect 0 hInv.spawned.side h
  have hSound := Core.sound_step hInv.agent hEffect
  have hSpawned := Core.spawned_step hInv.spawned hEffect
  have hMoved : Core.Alone s.agent.core agent.core := hEffect.alone fun b hTurn => by
    cases a <;> cases hTurn
    simpa [agentAlone] using hAlone
  have hToAgent : Core.Link s.edge.core agent.core := hInv.toAgent.receiver hMoved
  exact { hInv with
    spawned := hSpawned
    agent := hSound
    toAgent := hToAgent
    toEdge := hInv.toEdge.sender hMoved
    agentKnown := by
      -- every frame the Agent received names a stream of the Edge
      intro _ hFrame
      have hStarted := (hToAgent.received hInv.edge hSound).subset hFrame
      rcases hInv.edge.started_streamId hStarted with ⟨_, ht, hId⟩ | hControl | ⟨g, hg, hId⟩
      · exact .inr ⟨_, Core.mem_births ht, hId⟩
      · exact .inl hControl
      · rw [← hId]
        exact hInv.edgeKnown g hg
    agentFresh := by
      refine hEffect.births.before hInv.agentFresh (born_le hInv.agent) ?_ ?_
      · intro hEdge
        exact absurd (hInv.spawned.side.symm.trans hEdge) (by simp)
      · -- Data before the open would need an earlier task, but ids are not reused.
        intro _ b hBirths _ hFrame
        by_contra hCarries
        simp only [Core.carriesDataOf, Bool.not_eq_false, Bool.and_eq_true,
          decide_eq_true_eq] at hCarries
        have hStarted := (hToAgent.received hInv.edge hSound).subset hFrame
        obtain ⟨old, hOld, hId⟩ := agent_task_of_data hInv hStarted hCarries.1
        have hNodup := nodup_agent_ids hInv.numbered hInv.edge hSound hSpawned hToAgent
        rw [hBirths, map_append, nodup_append] at hNodup
        exact hNodup.2.2 old.1 (mem_map_of_mem hOld) b.1 (by simp) (hId.trans hCarries.2) }

/-- A transfer changes neither tasks nor received frames. -/
theorem Coherent.transfer (hInv : s.Coherent) {a : Core.CoreAction} {b : Core.CoreAction}
    (hEdge : s.edge.step (.core a) = some s'.edge) (hAgent : s.agent.step (.core b) = some s'.agent)
    (hToAgent : Core.Link s'.edge.core s'.agent.core)
    (hToEdge : Core.Link s'.agent.core s'.edge.core) : s'.Coherent := by
  have hEdgeEffect := EdgeSession.step_effect hInv.numbered.side hEdge
  have hAgentEffect := AgentSession.step_effect 0 hInv.spawned.side hAgent
  obtain ⟨core, hEdgeStep, hEdgeEq⟩ := map_eq_some_iff.mp hEdge
  obtain ⟨core', hAgentStep, hAgentEq⟩ := map_eq_some_iff.mp hAgent
  obtain ⟨hBirths, hReceived⟩ := (Core.step_effect hEdgeStep).births
  obtain ⟨hBirths', hReceived'⟩ := (Core.step_effect hAgentStep).births
  rw [show core = s'.edge.core by rw [← hEdgeEq]] at hBirths hReceived
  rw [show core' = s'.agent.core by rw [← hAgentEq]] at hBirths' hReceived'
  have hMono : s.edge.core.births ⊆ s'.edge.core.births := hBirths ▸ Subset.refl _
  exact {
    numbered := numbered_step hInv.numbered hEdge
    spawned := Core.spawned_step hInv.spawned hAgentEffect
    edge := Core.sound_step hInv.edge hEdgeEffect
    agent := Core.sound_step hInv.agent hAgentEffect
    toAgent := hToAgent
    toEdge := hToEdge
    edgeKnown := fun frame hFrame => (hInv.edgeKnown frame (hReceived ▸ hFrame)).mono hMono
    agentKnown := fun frame hFrame => (hInv.agentKnown frame (hReceived' ▸ hFrame)).mono hMono
    edgeUnheard := by
      unfold Core.Unheard Core.Before
      rw [hBirths, hReceived]
      exact hInv.edgeUnheard
    agentFresh := by
      unfold Core.Fresh Core.Before
      rw [hBirths', hReceived']
      exact hInv.agentFresh }

/-- The bytes that depart on one side are the ones that arrive on the other. -/
theorem link_transfer {a b a' b' : Core} {n : Nat} (h : Core.Link a b) (hBack : Core.Link b a)
    (ha : a.step (.depart n) = some a')
    (hb : b.step (.arrive (a.pipe.outgoing.take n)) = some b') :
    Core.Link a' b' ∧ Core.Link b' a' := by
  simp only [Core.step] at ha hb
  split_ifs at ha hb
  cases ha
  cases hb
  refine ⟨?_, hBack⟩
  unfold Core.Link at h ⊢
  simp only [depart]
  rw [h, append_assoc, append_assoc, append_assoc, take_append_drop]

/-- **Every step keeps the system coherent.** -/
theorem coherent_step {a : SystemAction} (hInv : s.Coherent) (h : s.step a = some s') :
    s'.Coherent := by
  cases a with
  | edge =>
    simp only [step] at h
    split_ifs at h with hAlone
    obtain ⟨_, hStep, rfl⟩ := map_eq_some_iff.mp h
    exact hInv.edgeStep hAlone hStep
  | agent =>
    simp only [step] at h
    split_ifs at h with hAlone
    obtain ⟨_, hStep, rfl⟩ := map_eq_some_iff.mp h
    exact hInv.agentStep hAlone hStep
  | toAgent =>
    simp only [step, bind_eq_bind] at h
    obtain ⟨_, hEdge, h⟩ := bind_eq_some_iff.mp h
    obtain ⟨_, hAgent, h⟩ := bind_eq_some_iff.mp h
    cases h
    obtain ⟨_, hDepart, rfl⟩ := map_eq_some_iff.mp hEdge
    obtain ⟨_, hArrive, rfl⟩ := map_eq_some_iff.mp hAgent
    obtain ⟨hToAgent, hToEdge⟩ := link_transfer hInv.toAgent hInv.toEdge hDepart hArrive
    exact hInv.transfer hEdge hAgent hToAgent hToEdge
  | toEdge =>
    simp only [step, bind_eq_bind] at h
    obtain ⟨_, hAgent, h⟩ := bind_eq_some_iff.mp h
    obtain ⟨_, hEdge, h⟩ := bind_eq_some_iff.mp h
    cases h
    obtain ⟨_, hDepart, rfl⟩ := map_eq_some_iff.mp hAgent
    obtain ⟨_, hArrive, rfl⟩ := map_eq_some_iff.mp hEdge
    obtain ⟨hToEdge, hToAgent⟩ := link_transfer hInv.toEdge hInv.toAgent hDepart hArrive
    exact hInv.transfer hEdge hAgent hToAgent hToEdge

theorem coherent_run {edgeLimits agentLimits : SessionLimits} {commandCapacity : Nat}
    {hasShutdown : Bool} {acts : List SystemAction}
    (h : exec step (new edgeLimits agentLimits commandCapacity hasShutdown) acts =
      some s) : s.Coherent :=
  exec_induction (P := Coherent) (fun _ _ _ hInv hStep => coherent_step hInv hStep)
    (coherent_new ..) h

end System

/-- **End-to-end delivery.** In every state that an Edge session and an Agent session
reach together, and for every stream id: each side has at most one task for it; what
was written to the local socket is a prefix of what was read from the ingress, and
what was written to the ingress a prefix of what was read from the local socket; and
if the Edge reports `Graceful`, the ingress got everything that was read from the
local socket up to its end. -/
theorem streams_delivered (edgeLimits agentLimits : SessionLimits) (commandCapacity : Nat)
    (hasShutdown : Bool) (acts : List SystemAction) (s : System)
    (hRun : exec System.step
      (.new edgeLimits agentLimits commandCapacity hasShutdown) acts = some s)
    (id : StreamId) :
    (s.edge.core.tasksOf id).length ≤ 1 ∧ (s.agent.core.tasksOf id).length ≤ 1 ∧
      s.agent.core.writtenOf id <+: s.edge.core.readOf id ∧
      s.edge.core.writtenOf id <+: s.agent.core.readOf id ∧
      ∀ t ∈ s.edge.core.tasksOf id, t.completion = some .graceful →
        ∃ u ∈ s.agent.core.tasksOf id, u.localEnded ∧ t.socketWritten = u.socketRead := by
  have hInv := System.coherent_run hRun
  have hEdgeIds := System.nodup_edge_ids hInv.numbered
  have hAgentIds :=
    System.nodup_agent_ids hInv.numbered hInv.edge hInv.agent hInv.spawned hInv.toAgent
  refine ⟨?_, ?_, ?_, ?_, ?_⟩
  · rcases Core.tasksOf_cases hEdgeIds id with ⟨t, -, -, hOf⟩ | ⟨-, hOf⟩ <;> simp [hOf]
  · rcases Core.tasksOf_cases hAgentIds id with ⟨t, -, -, hOf⟩ | ⟨-, hOf⟩ <;> simp [hOf]
  · exact hInv.toAgent.bytes_delivered hInv.edge hInv.agent hInv.agentFresh hEdgeIds hAgentIds id
  · exact hInv.toEdge.bytes_delivered hInv.agent hInv.edge hInv.edgeUnheard.fresh hAgentIds
      hEdgeIds id
  · intro _ ht hGraceful
    obtain ⟨hMem, hId⟩ := mem_filter.mp ht
    obtain ⟨u, hu, hSame, hEnded, hAll⟩ :=
      hInv.toEdge.graceful hInv.agent hInv.edge hInv.edgeUnheard.fresh hAgentIds hMem hGraceful
    refine ⟨u, mem_filter.mpr ⟨hu, ?_⟩, hEnded, hAll⟩
    rw [hSame]
    exact hId

namespace DeliveryExample

/-- The writer takes the next control frame and writes its `n` bytes. -/
def writeControl (n : Nat) : List Core.CoreAction :=
  [.writer .turn, .writer .turn, .writer (.wrote n)]

/-- The writer schedules `k` data frames, then writes the first, of `n` bytes. -/
def writeData (k n : Nat) : List Core.CoreAction :=
  List.replicate k (.writer .turn) ++
    [.writer .turn, .writer .turn, .writer .turn, .writer (.wrote n)]

def edge (acts : List Core.CoreAction) : List SystemAction := acts.map fun a => .edge (.core a)

def agent (acts : List Core.CoreAction) : List SystemAction := acts.map fun a => .agent (.core a)

def opening : List (List SystemAction) :=
  [[.edge (.enqueue .open), .edge .command], edge [.task 0 .sent], edge (writeControl 16),
    [.toAgent 16, .agent (.decode 16)], agent [.task 0 .connected, .task 0 .sent],
    agent (writeControl 16), [.toEdge 16, .edge (.decode 16)], edge [.task 0 .recv]]

/-- One byte to the local socket. -/
def request : List (List SystemAction) :=
  [edge [.task 0 (.read [7]), .task 0 .sent], edge (writeData 1 17),
    [.toAgent 17, .agent (.decode 16), .agent (.decode 1)],
    agent [.task 0 .recv, .task 0 (.wrote 1)]]

/-- One byte to the ingress, and the end of the local socket. -/
def response : List (List SystemAction) :=
  [agent [.task 0 (.read [9]), .task 0 .sent, .task 0 .readEof, .task 0 .sent],
    agent (writeData 2 17), agent (writeData 0 16),
    [.toEdge 33, .edge (.decode 16), .edge (.decode 1), .edge (.decode 16)],
    edge [.task 0 .recv, .task 0 (.wrote 1), .task 0 .recv, .task 0 .shutdownOk]]

/-- One stream, from its open to the end of the ingress. -/
def session : List SystemAction :=
  (opening ++ request ++ response ++ [edge [.task 0 .readEof, .task 0 .sent]]).flatten

/-- What the session delivered. -/
def delivered (s : System) : Bool :=
  s.agent.core.writtenOf 1 = [7] && s.edge.core.writtenOf 1 = [9] &&
    (s.edge.core.tasksOf 1).any (·.completion = some .graceful)

def twoStreams : SessionLimits :=
  { Sample.limits with maxStreams := 2, maxStreams_pos := Nat.two_pos }

open Sample in
/-- Two streams are opened and accepted, the peer sends a byte on each, the second first, and
each ingress sends one; the writer writes one of these. -/
def interleaved : List EdgeAction :=
  [.enqueue .open, .command, .core (.task 0 .sent), .enqueue .open, .command,
    .core (.task 1 .sent),
    .core (.arrive (openBytes 1 ++ openBytes 2 ++ dataBytes 2 7 ++ dataBytes 1 9)), .decode 16,
    .decode 16, .decode 16, .decode 1, .decode 16, .decode 1] ++
  List.map .core (writeControl 16 ++ writeControl 16 ++ [.task 0 .recv, .task 1 .recv,
    .task 0 .recv, .task 0 (.wrote 1), .task 1 .recv, .task 1 (.wrote 1), .task 1 (.read [5]),
    .task 1 .sent, .task 0 (.read [6]), .task 0 .sent] ++ writeData 2 17)

end DeliveryExample

open DeliveryExample Sample in
/-- A session that delivers both ways and ends gracefully. -/
theorem streams_delivered_session :
    ∃ s, exec System.step (.new limits limits 1 false) session = some s ∧
      delivered s = true ∧ s.agent.core.writtenOf 1 <+: s.edge.core.readOf 1 ∧
      s.edge.core.writtenOf 1 <+: s.agent.core.readOf 1 := by
  obtain ⟨s, hs, hDelivered⟩ : ∃ s, exec System.step (.new limits limits 1 false) session = some s ∧
      delivered s := by decide +kernel
  obtain ⟨-, -, hToAgent, hToEdge, -⟩ := streams_delivered limits limits 1 false session s hs 1
  exact ⟨s, hs, hDelivered, hToAgent, hToEdge⟩

/-- **Streams never mix**, on either side and whatever bytes its peer sends. -/
theorem streams_isolated (limits : SessionLimits) :
    (∀ n acts s, exec EdgeSession.step (.new limits n) acts = some s → s.core.Isolated) ∧
    ∀ b acts s, exec AgentSession.step (.new limits b) acts = some s → s.core.Isolated := by
  constructor
  · intro _ _ s hRun
    have hInv := exec_induction (P := fun s : EdgeSession => s.core.side = .edge ∧ s.core.Sound)
      (fun _ _ _ h hStep => Core.sound_side_step h (EdgeSession.step_effect h.1 hStep))
      ⟨rfl, Core.sound_new ..⟩ hRun
    exact hInv.2.isolated
  · intro _ _ s hRun
    have hInv := exec_induction (P := fun s : AgentSession => s.core.side = .agent ∧ s.core.Sound)
      (fun _ _ _ h hStep => Core.sound_side_step h (AgentSession.step_effect 0 h.1 hStep))
      ⟨rfl, Core.sound_new ..⟩ hRun
    exact hInv.2.isolated

open DeliveryExample in
theorem streams_isolated_interleaved : ∃ s,
    exec EdgeSession.step (.new twoStreams 1) interleaved = some s ∧
      s.core.writtenOf 1 = [9] ∧ s.core.writtenOf 2 = [7] ∧ s.core.readOf 1 = [6] ∧
      s.core.readOf 2 = [5] ∧ s.core.pipe.started.any (·.isData) = true ∧ s.core.Isolated := by
  obtain ⟨s, hs, hFirst, hSecond, hOwn, hOther, hStarted⟩ : ∃ s,
      exec EdgeSession.step (.new twoStreams 1) interleaved = some s ∧
      s.core.writtenOf 1 = [9] ∧ s.core.writtenOf 2 = [7] ∧ s.core.readOf 1 = [6] ∧
      s.core.readOf 2 = [5] ∧ s.core.pipe.started.any (·.isData) := by decide +kernel
  exact ⟨s, hs, hFirst, hSecond, hOwn, hOther, hStarted,
    (streams_isolated twoStreams).1 1 interleaved s hs⟩

end TunnelProxy.Mux
