import TunnelProxy.Mux.Tasks

/-!
# Where the frames of a session come from

`Core.Sent` ties the queues of a session to its stream tasks, for any peer: data
frames on the data queue are exactly the ones their task handed over, in order; a
control frame comes from the task of its stream, which sends one `OPEN_STREAM`, or
it is the dispatch loop's answer to a frame it received.

* `Core.sent_step` — every session step keeps `Sent`.
-/

namespace TunnelProxy.Mux

open Protocol Std List Pipeline StreamTask

namespace Core

/-- A frame of the dispatch loop: a heartbeat, or an answer on a stream that the peer
named. -/
structure Answer (received : List Frame) (frame : Frame) : Prop where
  type : frame.frameType ≠ .openStream ∧ frame.frameType ≠ .data ∧ frame.frameType ≠ .endStream
  stream : frame.streamId = StreamId.control ∨ ∃ g ∈ received, g.streamId = frame.streamId

variable {frame : Frame} {c' : Core}

theorem Answer.mono {received received' : List Frame} (h : Answer received frame)
    (hSub : received ⊆ received') : Answer received' frame where
  type := h.type
  stream := h.stream.imp_right fun ⟨g, hg, hId⟩ => ⟨g, hSub hg, hId⟩

def isOpen (o : Outbound) : Bool := o.frame.frameType = .openStream

structure Sent (c : Core) : Prop where
  fifo : c.pipe.Fifo
  framed : c.pipe.Framed
  data : ∀ (i : Nat) (t : StreamTask), c.tasks[i]? = some t →
    (c.pipe.sentData.filter (·.origin = some i)).map Outbound.frame = t.sentData
  dataOrigin : ∀ o ∈ c.pipe.sentData, ∃ i t, o.origin = some i ∧ c.tasks[i]? = some t
  controlOrigin : ∀ o ∈ c.pipe.sentControl, ∀ i, o.origin = some i →
    ∃ t, c.tasks[i]? = some t ∧ o.streamId = t.id ∧ (isOpen o → t.acked)
  answers : ∀ o ∈ c.pipe.sentControl, o.origin = none → Answer c.received o.frame
  sending : ∀ frame, c.dispatch = .sending frame → Answer c.received frame
  opened : ∀ (i : Nat) (t : StreamTask), c.tasks[i]? = some t → t.acked →
    ∃ o ∈ c.pipe.sentControl, o.origin = some i ∧ isOpen o
  openOnce : ((c.pipe.sentControl.filter isOpen).map Outbound.origin).Nodup

theorem sent_new (side : Side) (limits : SessionLimits) : (new side limits).Sent where
  fifo := by constructor <;> simp [new, Pipeline.new]
  framed := framed_new ..
  data i t h := by simp [new] at h
  dataOrigin o h := by simp [new, Pipeline.new] at h
  controlOrigin o h := by simp [new, Pipeline.new] at h
  answers o h := by simp [new, Pipeline.new] at h
  sending frame h := by simp [new] at h
  opened i t h := by simp [new] at h
  openOnce := by simp [new, Pipeline.new]

/-! ## Steps that hand nothing over -/

/-- The tasks keep what they handed over, and new ones have handed over nothing. -/
structure TasksKeep (l l' : List StreamTask) : Prop where
  keep : ∀ (i : Nat) (t : StreamTask), l[i]? = some t →
    ∃ t', l'[i]? = some t' ∧ t'.id = t.id ∧ t'.sentData = t.sentData ∧ t'.acked = t.acked
  fresh : ∀ (i : Nat) (t' : StreamTask), l'[i]? = some t' → l[i]? = none →
    t'.sentData = [] ∧ t'.acked = false

theorem tasksKeep_refl (l : List StreamTask) : TasksKeep l l where
  keep i t h := ⟨t, h, rfl, rfl, rfl⟩
  fresh i t h hNone := by simp [hNone] at h

theorem tasksKeep_set {l : List StreamTask} {i : Nat} {t t' : StreamTask}
    (hTask : l[i]? = some t) (hId : t'.id = t.id) (hSent : t'.sentData = t.sentData)
    (hAcked : t'.acked = t.acked) : TasksKeep l (l.set i t') where
  keep j u hu := by
    rw [getElem?_set]
    split_ifs with hEq hLt
    · subst hEq
      rw [hTask, Option.some.injEq] at hu
      subst hu
      exact ⟨t', rfl, hId, hSent, hAcked⟩
    · exact absurd (List.getElem?_eq_some_iff.mp hTask).1 hLt
    · exact ⟨u, hu, rfl, rfl, rfl⟩
  fresh j u hu hNone := by
    rw [getElem?_set] at hu
    split_ifs at hu with hEq hLt
    · subst hEq
      simp [hTask] at hNone
    · simp [hNone] at hu

variable {c : Core}

theorem Sent.keep (hInv : c.Sent) (hTasks : TasksKeep c.tasks c'.tasks)
    (hPipe : c'.pipe = c.pipe) (hReceived : c.received ⊆ c'.received)
    (hSending : ∀ frame, c'.dispatch = .sending frame → Answer c'.received frame) : c'.Sent where
  fifo := hPipe ▸ hInv.fifo
  framed := hPipe ▸ hInv.framed
  data i t' ht' := by
    rw [hPipe]
    cases ht : c.tasks[i]? with
    | none =>
      rw [(hTasks.fresh i t' ht' ht).1, map_eq_nil_iff, filter_eq_nil_iff]
      intro o ho hOrigin
      obtain ⟨_, _, hj, hjt⟩ := hInv.dataOrigin o ho
      rw [hj, decide_eq_true_eq, Option.some.injEq] at hOrigin
      rw [hOrigin, ht] at hjt
      cases hjt
    | some t =>
      obtain ⟨_, hu, -, hSent, -⟩ := hTasks.keep i t ht
      rw [ht', Option.some.injEq] at hu
      rw [hu, hSent]
      exact hInv.data i t ht
  dataOrigin o ho := by
    obtain ⟨i, t, hOrigin, ht⟩ := hInv.dataOrigin o (hPipe ▸ ho)
    obtain ⟨t', ht', -⟩ := hTasks.keep i t ht
    exact ⟨i, t', hOrigin, ht'⟩
  controlOrigin o ho i hOrigin := by
    obtain ⟨t, ht, hId, hAck⟩ := hInv.controlOrigin o (hPipe ▸ ho) i hOrigin
    obtain ⟨t', ht', hId', -, hAcked⟩ := hTasks.keep i t ht
    exact ⟨t', ht', hId.trans hId'.symm, fun hOpen => hAcked ▸ hAck hOpen⟩
  answers o ho hOrigin := (hInv.answers o (hPipe ▸ ho) hOrigin).mono hReceived
  sending := hSending
  opened i t' ht' hAcked := by
    rw [hPipe]
    cases ht : c.tasks[i]? with
    | none => simp [(hTasks.fresh i t' ht' ht).2] at hAcked
    | some t =>
      obtain ⟨_, hu, -, -, hAck⟩ := hTasks.keep i t ht
      rw [ht', Option.some.injEq] at hu
      exact hInv.opened i t ht (by rw [← hAck, ← hu]; exact hAcked)
  openOnce := hPipe ▸ hInv.openOnce

/-! ## Steps that hand a frame over -/

section SetTask

variable {c : Core} {i j : Nat} {t t' u : StreamTask}

theorem of_setTask (hTask : c.tasks[i]? = some t) (hu : (c.setTask i t').tasks[j]? = some u) :
    j = i ∧ u = t' ∨ j ≠ i ∧ c.tasks[j]? = some u := by
  by_cases hj : j = i
  · subst hj
    rw [setTask, getElem?_set_self (List.getElem?_eq_some_iff.mp hTask).1] at hu
    exact .inl ⟨rfl, (Option.some.inj hu).symm⟩
  · exact .inr ⟨hj, (getElem?_set_ne (Ne.symm hj)).symm.trans hu⟩

theorem exists_setTask (hTask : c.tasks[i]? = some t) (hu : c.tasks[j]? = some u) :
    ∃ u', (c.setTask i t').tasks[j]? = some u' ∧ (u = u' ∨ u = t ∧ t' = u') := by
  by_cases hj : j = i
  · subst hj
    exact ⟨t', getElem?_set_self (List.getElem?_eq_some_iff.mp hTask).1,
      .inr ⟨Option.some.inj (hu.symm.trans hTask), rfl⟩⟩
  · exact ⟨u, (getElem?_set_ne (Ne.symm hj)).trans hu, .inl rfl⟩

end SetTask

section

variable (hInv : c.Sent)
include hInv

/-- A task that hands over a control frame: its `OPEN_STREAM`, once, or a reset. -/
theorem Sent.taskControl {i : Nat} {t t' : StreamTask} {pipe : Pipeline}
    (hTask : c.tasks[i]? = some t) (hOpens : t.Opens) (hStep : t.step .sent = some t')
    (hSend : t.pendingSend = some (.control frame))
    (hPush : c.pipe.pushControl ⟨some i, frame⟩ = some pipe) :
    Sent { c.setTask i t' with pipe := pipe } := by
  -- an `OPEN_STREAM`, which a task sends once, or a reset
  obtain ⟨hData, hId, hAck⟩ := control_sent hOpens hStep hSend
  have hFixed := (step_fixed hStep).1
  have hNew : (c.setTask i t').tasks[i]? = some t' :=
    getElem?_set_self (List.getElem?_eq_some_iff.mp hTask).1
  have hMono : t.acked → t'.acked := fun h => by
    rcases hAck with ⟨-, hNot, -⟩ | ⟨-, hEq⟩
    · rw [hNot] at h; cases h
    · rw [hEq]; exact h
  have hType : Outbound.isData ⟨some i, frame⟩ = false := by
    rcases hAck with ⟨hType, -⟩ | ⟨hType, -⟩ <;> simp [Outbound.isData, hType]
  have hFifo := hInv.fifo.pushControl hType hPush
  obtain ⟨-, rfl⟩ := pushControl_eq hPush
  exact { hInv with
    fifo := hFifo
    framed := { hInv.framed with }
    data := fun j u hu => by
      rcases of_setTask hTask hu with ⟨rfl, rfl⟩ | ⟨-, hOld⟩
      · rw [hData]
        exact hInv.data j t hTask
      · exact hInv.data j u hOld
    dataOrigin := fun o ho => by
      obtain ⟨j, _, hOrigin, hu⟩ := hInv.dataOrigin o ho
      obtain ⟨u', hu', -⟩ := exists_setTask hTask hu
      exact ⟨j, u', hOrigin, hu'⟩
    controlOrigin := fun o ho j hOrigin => by
      rcases mem_append.mp ho with ho | ho
      · obtain ⟨u, hu, hEq, hOpen⟩ := hInv.controlOrigin o ho j hOrigin
        obtain ⟨_, hu', rfl | ⟨rfl, rfl⟩⟩ := exists_setTask hTask hu
        · exact ⟨u, hu', hEq, hOpen⟩
        · exact ⟨t', hu', hEq.trans hFixed.symm, fun h => hMono (hOpen h)⟩
      · rw [mem_singleton.mp ho] at hOrigin ⊢
        cases hOrigin
        refine ⟨t', hNew, hId.trans hFixed.symm, fun hOpen => ?_⟩
        rcases hAck with ⟨-, -, hAcked⟩ | ⟨hReset, -⟩
        · exact hAcked
        · simp [isOpen, hReset] at hOpen
    answers := fun o ho hOrigin => by
      rcases mem_append.mp ho with ho | ho
      · exact hInv.answers o ho hOrigin
      · rw [mem_singleton.mp ho] at hOrigin
        cases hOrigin
    opened := fun j u hu hAcked => by
      rcases of_setTask hTask hu with ⟨rfl, rfl⟩ | ⟨-, hOld⟩
      · rcases hAck with ⟨hOpen, -⟩ | ⟨-, hEq⟩
        · exact ⟨⟨some j, frame⟩, mem_append_right _ (mem_singleton_self _), rfl, by
            simp [isOpen, hOpen]⟩
        · obtain ⟨o, ho, hOrigin, hOpen⟩ := hInv.opened j t hTask (hEq ▸ hAcked)
          exact ⟨o, mem_append_left _ ho, hOrigin, hOpen⟩
      · obtain ⟨o, ho, hOrigin, hOpen⟩ := hInv.opened j u hOld hAcked
        exact ⟨o, mem_append_left _ ho, hOrigin, hOpen⟩
    openOnce := by
      rw [filter_append, map_append]
      rcases hAck with ⟨hOpen, hNot, -⟩ | ⟨hReset, -⟩
      · rw [filter_cons_of_pos (by simp [isOpen, hOpen])]
        refine nodup_append.mpr ⟨hInv.openOnce, by simp, ?_⟩
        -- An earlier `OPEN_STREAM` of this task would have left it acknowledged.
        intro origin hMem _ hOther' hEq
        obtain ⟨o, ho, rfl⟩ := mem_map.mp hMem
        obtain ⟨hSent, hIsOpen⟩ := mem_filter.mp ho
        have hOrigin : o.origin = some i := by simpa [hEq] using hOther'
        obtain ⟨_, hu, -, hAcked⟩ := hInv.controlOrigin o hSent i hOrigin
        rw [hTask, Option.some.injEq] at hu
        rw [← hu, hNot] at hAcked
        exact absurd (hAcked hIsOpen) (by simp)
      · rw [filter_cons_of_neg (by simp [isOpen, hReset])]
        simpa using hInv.openOnce }

/-- A task that hands over a data frame. -/
theorem Sent.taskData {i : Nat} {t t' : StreamTask} {pipe : Pipeline}
    (hTask : c.tasks[i]? = some t) (hOpens : t.Opens) (hSends : t.Sends)
    (hStep : t.step .sent = some t') (hSend : t.pendingSend = some (.data frame))
    (hPush : c.pipe.pushData ⟨some i, frame⟩ = some pipe) :
    Sent { c.setTask i t' with pipe := pipe } := by
  obtain ⟨hData, hAcked, -, -, -, hType⟩ := data_sent hOpens hSends hStep hSend
  have hFixed := (step_fixed hStep).1
  have hFifo := hInv.fifo.pushData (by simpa [Outbound.isData] using hType) hPush
  obtain ⟨-, rfl⟩ := pushData_eq hPush
  exact { hInv with
    fifo := hFifo
    framed := { hInv.framed with }
    data := fun j u hu => by
      rw [filter_append, map_append]
      rcases of_setTask hTask hu with ⟨rfl, rfl⟩ | ⟨hj, hOld⟩
      · rw [hData, ← hInv.data j t hTask]
        simp
      · rw [hInv.data j u hOld]
        simp [Ne.symm hj]
    dataOrigin := fun o ho => by
      rcases mem_append.mp ho with ho | ho
      · obtain ⟨j, _, hOrigin, hu⟩ := hInv.dataOrigin o ho
        obtain ⟨u', hu', -⟩ := exists_setTask hTask hu
        exact ⟨j, u', hOrigin, hu'⟩
      · rw [mem_singleton.mp ho]
        obtain ⟨u', hu', -⟩ := exists_setTask hTask hTask
        exact ⟨i, u', rfl, hu'⟩
    controlOrigin := fun o ho j hOrigin => by
      obtain ⟨u, hu, hEq, hOpen⟩ := hInv.controlOrigin o ho j hOrigin
      obtain ⟨_, hu', rfl | ⟨rfl, rfl⟩⟩ := exists_setTask hTask hu
      · exact ⟨u, hu', hEq, hOpen⟩
      · exact ⟨t', hu', hEq.trans hFixed.symm, fun h => hAcked ▸ hOpen h⟩
    opened := fun j u hu hAck => by
      rcases of_setTask hTask hu with ⟨rfl, rfl⟩ | ⟨-, hOld⟩
      · exact hInv.opened j t hTask (hAcked ▸ hAck)
      · exact hInv.opened j u hOld hAck }

/-- The dispatch loop hands over its frame. -/
theorem Sent.dispatchControl {pipe : Pipeline}
    (hSending : c.dispatch = .sending frame)
    (hPush : c.pipe.pushControl ⟨none, frame⟩ = some pipe) :
    Sent { c with pipe := pipe, dispatch := .select } := by
  have hAnswer := hInv.sending frame hSending
  have hFifo := hInv.fifo.pushControl
    (by simp [Outbound.isData, hAnswer.type.2.1, hAnswer.type.2.2]) hPush
  obtain ⟨-, rfl⟩ := pushControl_eq hPush
  exact { hInv with
    fifo := hFifo
    framed := { hInv.framed with }
    controlOrigin := fun o ho j hOrigin => by
      rcases mem_append.mp ho with ho | ho
      · exact hInv.controlOrigin o ho j hOrigin
      · rw [mem_singleton.mp ho] at hOrigin
        cases hOrigin
    answers := fun o ho hOrigin => by
      rcases mem_append.mp ho with ho | ho
      · exact hInv.answers o ho hOrigin
      · rw [mem_singleton.mp ho]
        exact hAnswer
    sending := fun _ h => by simp at h
    opened := fun i t ht hAcked => by
      obtain ⟨o, ho, hBoth⟩ := hInv.opened i t ht hAcked
      exact ⟨o, mem_append_left _ ho, hBoth⟩
    openOnce := by
      rw [filter_append, filter_cons_of_neg (by simp [isOpen, hAnswer.type.1])]
      simpa using hInv.openOnce }

/-- The writer and the transport keep what the queues accepted. -/
theorem Sent.pipe {pipe : Pipeline} (hFifo : pipe.Fifo)
    (hFramed : pipe.Framed) (hControl : pipe.sentControl = c.pipe.sentControl)
    (hData : pipe.sentData = c.pipe.sentData) : Sent { c with pipe := pipe } where
  fifo := hFifo
  framed := hFramed
  data := hData ▸ hInv.data
  dataOrigin := hData ▸ hInv.dataOrigin
  controlOrigin := hControl ▸ hInv.controlOrigin
  answers := hControl ▸ hInv.answers
  sending := hInv.sending
  opened := hControl ▸ hInv.opened
  openOnce := hControl ▸ hInv.openOnce

/-! ## Every step -/

theorem Effect.sent {a : CoreAction} (hTasks : c.TasksOk)
    (h : Effect c a c') : c'.Sent := by
  cases h with
  | task _ _ _ _ hTask hStep hEvent =>
    obtain ⟨hSame, hAcked⟩ := sentData_eq_of_step hEvent hStep
    exact hInv.keep (tasksKeep_set hTask (step_fixed hStep).1 hSame hAcked) rfl
      (Subset.refl _) hInv.sending
  | control _ _ _ _ _ hTask hStep hSend hPush =>
    exact hInv.taskControl hTask (hTasks.getElem hTask).opens hStep hSend hPush
  | data _ _ _ _ _ hTask hStep hSend hPush =>
    have hOk := hTasks.getElem hTask
    exact hInv.taskData hTask hOk.opens hOk.sends hStep hSend hPush
  | closed _ _ _ hTask hStep hSend =>
    obtain ⟨hSame, hAcked⟩ := closed_sent hStep hSend
    exact hInv.keep (tasksKeep_set hTask (step_fixed hStep).1 hSame hAcked) rfl
      (Subset.refl _) hInv.sending
  | abort _ _ hTask =>
    exact hInv.keep (tasksKeep_set hTask rfl rfl rfl) rfl (Subset.refl _) hInv.sending
  | writer _ pipe hStep =>
    have hEffect := Pipeline.step_effect hStep
    exact hInv.pipe (fifo_step hInv.fifo hStep) (hEffect.framed hInv.framed)
      hEffect.accepted.1 hEffect.accepted.2
  | arrive | arriveEof => exact { hInv with }
  | depart => exact hInv.pipe { hInv.fifo with } { hInv.framed with } rfl rfl

theorem Stops.sent (h : Stops c c') : c'.Sent := by
  refine hInv.keep (h.tasks ▸ tasksKeep_refl _) h.pipe (h.received ▸ Subset.refl _) ?_
  intro _ hSending
  have hLooping := h.looping
  simp [hSending, Dispatch.looping] at hLooping

omit hInv in
theorem tasksKeep_spawn (c : Core) (streamId : StreamId) :
    TasksKeep c.tasks (c.spawn streamId).tasks := by
  unfold spawn
  split_ifs
  · constructor
    · intro i t h
      exact ⟨t, (getElem?_append_left (List.getElem?_eq_some_iff.mp h).1).trans h, rfl, rfl, rfl⟩
    · intro i t h hNone
      rw [getElem?_append] at h
      split_ifs at h
      · simp [hNone] at h
      · rw [getElem?_singleton] at h
        split_ifs at h
        cases h
        exact ⟨rfl, rfl⟩
  · exact tasksKeep_refl _

theorem Sent.spawn (streamId : StreamId) : (c.spawn streamId).Sent := by
  refine hInv.keep (tasksKeep_spawn c streamId) ?_ ?_ ?_
  all_goals
    unfold Core.spawn
    split_ifs
  · rfl
  · rfl
  · exact Subset.refl _
  · exact Subset.refl _
  · exact hInv.sending
  · exact hInv.sending

/-- An answer to a frame that was received. -/
theorem Answers.answer {next : Dispatch} (hFrame : frame ∈ c.received)
    (h : Answers c frame next) : ∀ reply, next = .sending reply → Answer c.received reply := by
  intro reply hReply
  rcases h with hSame | ⟨_, hSent, hType, hId⟩
  · exact hInv.sending reply (hSame ▸ hReply)
  · rw [hSent, Dispatch.sending.injEq] at hReply
    subst hReply
    exact ⟨by simp [hType], .inr ⟨frame, hFrame, hId.symm⟩⟩

theorem Handled.sent {result : Option (Except ProtocolError Frame)}
    (hReceived : completed result ⊆ c.received) (h : Handled c result c') : c'.Sent := by
  cases h with
  | incomplete => exact hInv
  | stop _ _ hStop => exact hStop.sent hInv
  | keep => exact hInv
  | send frame _ _ hControl hReply =>
    refine { hInv with sending := fun _ hSending => ?_ }
    cases hSending
    exact ⟨⟨hControl.2.2, hControl.1, hControl.2.1⟩,
      .inr ⟨frame, hReceived mem_cons_self, hReply.symm⟩⟩
  | forward frame _ _ hForward =>
    have hFrame : frame ∈ c.received := hReceived mem_cons_self
    cases hForward with
    | delivered _ _ _ hTask =>
      exact hInv.keep (tasksKeep_set hTask rfl rfl rfl) rfl (Subset.refl _) hInv.sending
    | removed next hNext | ignored next hNext =>
      exact { hInv with sending := hNext.answer hInv hFrame }
  | spawn frame => exact hInv.spawn frame.streamId

/-- **Every session step keeps `Sent`.** -/
theorem sent_step {turn : Turn} {next next' : UInt32}
    (hTasks : c.TasksOk) (h : SessionEffect c turn next next' c') : c'.Sent := by
  cases h with
  | core _ _ _ hStep => exact (step_effect hStep).sent hInv hTasks
  | same => exact hInv
  | read _ _ _ _ _ hRead hHandled =>
    obtain ⟨-, -, -, rfl, rfl⟩ := read_eq hRead
    refine hHandled.sent ?_ (subset_append_right _ _)
    exact hInv.keep (tasksKeep_refl _) rfl (subset_append_left _ _) fun frame hSending =>
      (hInv.sending frame hSending).mono (subset_append_left _ _)
  | spawn => exact hInv.spawn next
  | event streamId rest _ _ _ _ hNext =>
    have hKept : (removeStream { c with events := rest } streamId).Sent := { hInv with }
    rcases hNext with rfl | hStop
    · exact hKept
    · exact hStop.sent hKept
  | ping _ _ hType hId =>
    refine { hInv with sending := fun _ hSending => ?_ }
    cases hSending
    exact ⟨by simp [hType], .inl hId⟩
  | sent _ _ hSending hPush _ hNext =>
    have hKept := hInv.dispatchControl hSending hPush
    rcases hNext with rfl | hStop
    · exact hKept
    · exact hStop.sent hKept
  | stop _ hStop => exact hStop.sent hInv

end

end Core

end TunnelProxy.Mux
