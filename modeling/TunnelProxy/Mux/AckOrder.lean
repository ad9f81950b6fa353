import TunnelProxy.Mux.Delivery

/-!
# The acknowledgement of a stream and its data

The Agent task of a stream puts its `OPEN_STREAM` on the control queue before it
puts data on the data queue, and the writer looks at the control queue before it
pops the fair queue. That orders the two on the wire as long as the writer really
looks: after a full burst of control frames it goes to the scheduled data without
asking, and an acknowledgement that is still queued is overtaken.

* `Pipeline.skipsAck` — the writer is about to skip the control queue while the
  acknowledgement of a stream with scheduled data is on it.
* `ack_before_data` — in every run without such a step the acknowledgement of a
  stream is on the wire before its data, and no Edge task gets data first.
* `data_before_ack` — a run of an Edge and an Agent in which eight heartbeats fill
  the burst and the Edge rejects the stream.
-/

namespace TunnelProxy.Mux

open Protocol Common Transition List Mux.Core Option

variable {o : Outbound}

namespace Pipeline

/-- The burst is full and data is scheduled, so the writer will not look at the
control queue; but the `OPEN_STREAM` of a stream with scheduled data is there. -/
def skipsAck (p : Pipeline) : Bool :=
  p.phase = .control && maxControlFrameBurst ≤ p.controlBurst && !p.scheduled.isEmpty &&
    p.control.any fun a => isOpen a && !(p.scheduled.items a.streamId).isEmpty

/-! ## The writer -/

/-- The `OPEN_STREAM` of the task that sent `o` is among `frames`. -/
def Opened (frames : List Outbound) (o : Outbound) : Prop :=
  ∃ a ∈ frames, isOpen a ∧ a.origin = o.origin ∧ a.streamId = o.streamId

structure AckFirst (p : Pipeline) : Prop where
  /-- Before a pop, everything scheduled has its acknowledgement on the wire. -/
  ready : p.phase = .data → ∀ s, ∀ o ∈ p.scheduled.items s, Opened p.started o
  ordered : ∀ (k : Nat) (o : Outbound), p.started[k]? = some o → o.isData →
    Opened (p.started.take k) o

variable {p p' : Pipeline} {a : WriterAction} {disconnected : Bool}

/-- The next frame on the wire keeps the order if it is a control frame, or a data
frame whose acknowledgement is there. -/
theorem AckFirst.start (hInv : p.AckFirst) (hOpened : o.isData → Opened p.started o) :
    ∀ (k : Nat) (x : Outbound), (p.started ++ [o])[k]? = some x → x.isData →
      Opened ((p.started ++ [o]).take k) x := by
  intro k x hx hData
  rw [getElem?_append] at hx
  split_ifs at hx with hLt
  · rw [take_append_of_le_length (Nat.le_of_lt hLt)]
    exact hInv.ordered k x hx hData
  · rw [getElem?_singleton] at hx
    split_ifs at hx with hZero
    cases hx
    have hk : k = p.started.length := by omega
    rw [hk, take_left]
    exact hOpened hData

/-- When the writer comes to the pop, the acknowledgements of all scheduled frames are
on the wire: the control queue is empty, or none of them is on it. -/
theorem opened_of_mayPop (hFifo : p.Fifo) (hAlive : p.alive)
    (hBacked : ∀ o ∈ p.sentData, Opened p.sentControl o)
    (hClosed : p.controlOpen = false → p.control = []) (hPhase : p.phase = .control)
    (hPop : p.MayPop) (hSkips : p.skipsAck = false) {s : StreamId}
    (ho : o ∈ p.scheduled.items s) : Opened p.started o := by
  have hOf := hFifo.scheduled_isDataOf hAlive ho
  have hSent : o ∈ p.sentData := by
    have hMem : o ∈ p.sentData.filter (·.isDataOf s) := by
      rw [← hFifo.data hAlive s]
      exact mem_append_left _ (mem_append_right _ ho)
    exact (mem_filter.mp hMem).1
  obtain ⟨a, ha, hOpen, hOrigin, hId⟩ := hBacked o hSent
  rw [← hFifo.control hAlive] at ha
  rcases mem_append.mp ha with hStarted | hQueued
  · exact ⟨a, (mem_filter.mp hStarted).1, hOpen, hOrigin, hId⟩
  · -- Still queued: then the writer got here only by skipping the queue.
    exfalso
    rcases hPop with hEmpty | hShut | ⟨hBurst, hScheduled⟩
    · rw [hEmpty] at hQueued
      cases hQueued
    · rw [hClosed hShut] at hQueued
      cases hQueued
    · have hStream : a.streamId = s := by
        simp only [Outbound.isDataOf, Bool.and_eq_true, decide_eq_true_eq] at hOf
        exact hId.trans hOf.2
      have hItems : (p.scheduled.items a.streamId).isEmpty = false := by
        rw [hStream, isEmpty_eq_false_iff]
        exact ne_nil_of_mem ho
      have hAny : (p.control.any fun a =>
          isOpen a && !(p.scheduled.items a.streamId).isEmpty) = true :=
        any_eq_true.mpr ⟨a, hQueued, by simp [hOpen, hItems]⟩
      simp [skipsAck, hPhase, hBurst, hScheduled, hAny] at hSkips

/-- **Every writer step that does not skip an acknowledgement keeps the order.** -/
theorem ackFirst_step (hInv : p.AckFirst) (hFifo : p.Fifo)
    (hBacked : ∀ o ∈ p.sentData, Opened p.sentControl o)
    (hClosed : p.controlOpen = false → p.control = []) (hSkips : a = .turn → p.skipsAck = false)
    (h : p.step disconnected a = some p') : p'.AckFirst := by
  cases step_effect h with
  | startControl o _ hControl hBetween =>
    have hType : o.isData = false := by
      refine hFifo.controlTyped o ?_
      rw [← hFifo.control (alive_of_between hBetween), hControl]
      simp
    exact ⟨fun hPhase => by simp at hPhase, hInv.start fun hData => by simp [hType] at hData⟩
  | startData o scheduled hPop hPhase =>
    obtain ⟨s, hHead, -⟩ := BoundedFairQueue.items_pop hPop
    have hMem : o ∈ p.scheduled.items s := by
      rw [hHead]
      exact mem_cons_self
    exact ⟨fun hPhase' => by simp at hPhase', hInv.start fun _ => hInv.ready hPhase s o hMem⟩
  | schedule _ _ _ _ _ _ hNext =>
    refine ⟨fun hPhase => ?_, hInv.ordered⟩
    rcases hNext with rfl | rfl <;> simp at hPhase
  | move _ hSame hBetween _ _ hPop =>
    refine ⟨fun hPhase s o ho => ?_, hSame.started ▸ hInv.ordered⟩
    obtain ⟨hControl, hMay⟩ := hPop hPhase
    rw [hSame.scheduled] at ho
    rw [hSame.started]
    have hTurn : a = .turn := by
      cases a <;> simp [step, wrote, failed, finished, hControl] at h
      rfl
    exact opened_of_mayPop hFifo (alive_of_between hBetween) hBacked hClosed hControl hMay
      (hSkips hTurn) ho
  | wrote _ _ _ _ _ _ _ hSame _ hNext =>
    refine ⟨fun hData => ?_, ?_⟩
    · rcases hNext with ⟨-, hNext⟩ | ⟨-, hNext | hNext⟩ <;> simp [hNext] at hData
    · rw [hSame.started]
      exact hInv.ordered
  | stop =>
    exact ⟨fun hPhase => by simp [stop] at hPhase, hInv.ordered⟩

/-- The writer closes its end of the control queue when it is empty and no sender is
left, and finds nothing on it afterwards. -/
theorem step_controlOpen (hClosed : p.controlOpen = false → p.control = [])
    (h : p.step disconnected a = some p') (hShut : p'.controlOpen = false) :
    p'.control = [] ∧ (p.controlOpen = false ∨ disconnected) := by
  cases step_effect h with
  | startControl _ _ hControl =>
    have hEmpty := hClosed hShut
    rw [hControl] at hEmpty
    cases hEmpty
  | startData | schedule => exact ⟨hClosed hShut, .inl hShut⟩
  | move _ hSame _ _ _ _ hOpen =>
    rw [hSame.control]
    rcases hOpen with hSameOpen | ⟨-, hEmpty, hGone⟩
    · rw [hSameOpen] at hShut
      exact ⟨hClosed hShut, .inl hShut⟩
    · exact ⟨hEmpty, .inr hGone⟩
  | wrote _ _ _ _ _ _ _ hSame hOpen =>
    rw [hOpen] at hShut
    rw [hSame.control]
    exact ⟨hClosed hShut, .inl hShut⟩
  | stop => exact ⟨rfl, .inl hShut⟩

end Pipeline

/-! ## The session -/

namespace Core

variable {c c' : Core}

/-- A data frame on the queue has its `OPEN_STREAM` on the other queue: the task was
acknowledged before it read. -/
theorem Sound.backed (hInv : c.Sound) :
    ∀ o ∈ c.pipe.sentData, Pipeline.Opened c.pipe.sentControl o := by
  intro _ ho
  obtain ⟨i, t, hOrigin, hTask, hOf, hSent⟩ := hInv.sentData_id ho
  simp only [Outbound.isDataOf, Bool.and_eq_true, decide_eq_true_eq] at hOf
  have hOk := hInv.tasks.getElem hTask
  have hProduced : t.produced ≠ [] := ne_nil_of_mem (hOk.sends.sent.subset hSent)
  obtain ⟨a, ha, hAck, hOpen⟩ :=
    hInv.sent.opened i t hTask (hOk.opens.produced hProduced).1
  obtain ⟨_, hu, hId, -⟩ := hInv.sent.controlOrigin a ha i hAck
  rw [hTask, Option.some.injEq] at hu
  exact ⟨a, ha, hOpen, hAck.trans hOrigin.symm, by rw [hId, ← hu, hOf.2]⟩

structure AckOrdered (c : Core) : Prop where
  pipe : c.pipe.AckFirst
  closed : c.pipe.controlOpen = false → c.disconnected ∧ c.pipe.control = []

theorem ackOrdered_new (side : Side) (limits : SessionLimits) : (new side limits).AckOrdered where
  pipe := by constructor <;> simp [new, Pipeline.new]
  closed h := by simp [new, Pipeline.new] at h

/-- A step that leaves the queues alone. -/
theorem AckOrdered.keep (hInv : c.AckOrdered) (hPipe : c'.pipe = c.pipe)
    (hGone : c.disconnected → c'.disconnected) : c'.AckOrdered where
  pipe := hPipe ▸ hInv.pipe
  closed h := by
    rw [hPipe] at h ⊢
    exact ⟨hGone (hInv.closed h).1, (hInv.closed h).2⟩

/-- A sender puts a frame on its queue. -/
theorem AckOrdered.push (hInv : c.AckOrdered) (hSender : ¬ c.disconnected)
    (hPush : c.pipe.pushControl o = some c'.pipe ∨ c.pipe.pushData o = some c'.pipe) :
    c'.AckOrdered := by
  have hOpen : c.pipe.controlOpen ≠ false := fun h => hSender (hInv.closed h).1
  rcases hPush with hPush | hPush
  · obtain ⟨-, hPipe⟩ := Pipeline.pushControl_eq hPush
    refine ⟨?_, fun h => absurd (by rwa [hPipe] at h) hOpen⟩
    rw [hPipe]
    exact ⟨hInv.pipe.ready, hInv.pipe.ordered⟩
  · obtain ⟨-, hPipe⟩ := Pipeline.pushData_eq hPush
    refine ⟨?_, fun h => absurd (by rwa [hPipe] at h) hOpen⟩
    rw [hPipe]
    exact ⟨hInv.pipe.ready, hInv.pipe.ordered⟩

theorem Effect.ackOrdered {a : CoreAction} (hInv : c.AckOrdered) (hSound : c.Sound)
    (hSkips : a = .writer .turn → c.pipe.skipsAck = false) (h : Effect c a c') : c'.AckOrdered := by
  cases h with
  | task i t t' e hTask hStep | closed i t t' hTask hStep =>
    have hSender := not_disconnected_of_running hTask (StreamTask.running_of_step hStep)
    exact hInv.keep rfl fun hGone => absurd hGone hSender
  | control _ _ _ _ _ hTask hStep _ hPush =>
    have hSender := not_disconnected_of_running hTask (StreamTask.running_of_step hStep)
    exact hInv.push hSender (.inl hPush)
  | data _ _ _ _ _ hTask hStep _ hPush =>
    have hSender := not_disconnected_of_running hTask (StreamTask.running_of_step hStep)
    exact hInv.push hSender (.inr hPush)
  | abort _ _ hTask hRuns =>
    exact hInv.keep rfl fun hGone => absurd hGone (not_disconnected_of_running hTask hRuns)
  | writer _ pipe hStep =>
    have hClosed : c.pipe.controlOpen = false → c.pipe.control = [] := fun h => (hInv.closed h).2
    refine ⟨?_, fun hShut => ?_⟩
    · exact Pipeline.ackFirst_step hInv.pipe hSound.sent.fifo hSound.backed hClosed
        (fun hTurn => hSkips (by rw [hTurn])) hStep
    · obtain ⟨hEmpty, hWhy⟩ := Pipeline.step_controlOpen hClosed hStep hShut
      exact ⟨hWhy.elim (fun h => (hInv.closed h).1) fun h => h, hEmpty⟩
  | arrive | arriveEof => exact hInv.keep rfl fun hGone => hGone
  | depart => exact ⟨⟨hInv.pipe.ready, hInv.pipe.ordered⟩, hInv.closed⟩

/-- **Every step that does not skip an acknowledgement keeps the order.** -/
theorem ackOrdered_step {turn : Turn} {next next' : UInt32} (hInv : c.AckOrdered) (hSound : c.Sound)
    (hSkips : turn = .core (.writer .turn) → c.pipe.skipsAck = false)
    (h : SessionEffect c turn next next' c') : c'.AckOrdered := by
  have hSelect : c.dispatch = .select → ¬ c.disconnected := fun h =>
    not_disconnected_of_holds (by simp [h, Dispatch.holdsSenders])
  cases h with
  | core _ _ hTurn hStep =>
    exact (step_effect hStep).ackOrdered hInv hSound fun ha => hSkips (by rw [hTurn, ha])
  | same => exact hInv
  | read _ _ _ _ _ hRead hHandled =>
    obtain ⟨hLoop, -, -, -, rfl⟩ := read_eq hRead
    exact hInv.keep hHandled.pipe fun hGone => absurd hGone (hSelect hLoop)
  | spawn _ hLoop =>
    refine hInv.keep ?_ fun hGone => absurd hGone (hSelect hLoop)
    unfold spawn
    split_ifs <;> rfl
  | event _ _ _ hLoop _ _ hNext =>
    refine hInv.keep ?_ fun hGone => absurd hGone (hSelect hLoop)
    rcases hNext with rfl | hStop
    · rfl
    · exact hStop.pipe
  | ping _ hLoop => exact hInv.keep rfl fun hGone => absurd hGone (hSelect hLoop)
  | sent _ pipe hSending hPush _ hNext =>
    have hSender : ¬ c.disconnected :=
      not_disconnected_of_holds (by simp [hSending, Dispatch.holdsSenders])
    refine hInv.push hSender (.inl (hPush.trans ?_))
    rcases hNext with rfl | hStop
    · rfl
    · rw [hStop.pipe]
  | stop _ hStop => exact hInv.keep hStop.pipe (disconnected_of_stops hStop)

end Core

/-! ## Runs -/

/-- The step is not one in which the writer skips a queued acknowledgement. -/
def AgentSession.keepsAckFirst (s : AgentSession) : AgentAction → Bool
  | .core (.writer .turn) => !s.core.pipe.skipsAck
  | _ => true

@[inherit_doc AgentSession.keepsAckFirst]
def System.keepsAckFirst (s : System) : SystemAction → Bool
  | .agent a => s.agent.keepsAckFirst a
  | _ => true

theorem AgentSession.ackOrdered_step {s s' : AgentSession} {a : AgentAction}
    (hSide : s.core.side = .agent) (hInv : s.core.AckOrdered) (hSound : s.core.Sound)
    (hKeeps : s.keepsAckFirst a) (h : s.step a = some s') : s'.core.AckOrdered := by
  refine Core.ackOrdered_step hInv hSound ?_ (step_effect 0 hSide h)
  intro hTurn
  cases a <;> cases hTurn
  simpa [keepsAckFirst] using hKeeps

variable {hasShutdown : Bool}

theorem AgentSession.ackOrdered_run {limits : SessionLimits} {acts : List AgentAction}
    {s : AgentSession} (hKeeps : Guarded AgentSession.step (fun s a => s.keepsAckFirst a)
      (.new limits hasShutdown) acts)
    (hRun : exec AgentSession.step (.new limits hasShutdown) acts = some s) :
    s.core.Sound ∧ s.core.AckOrdered := by
  have hInv : s.core.side = .agent ∧ s.core.Sound ∧ s.core.AckOrdered := by
    refine exec_induction_guarded
      (P := fun s => s.core.side = .agent ∧ s.core.Sound ∧ s.core.AckOrdered) ?_ ?_ hKeeps hRun
    · rintro _ _ _ ⟨hSide, hSound, hOrdered⟩ hGuard hStep
      have hEffect := step_effect 0 hSide hStep
      exact ⟨hEffect.fixed.1.trans hSide, sound_step hSound hEffect,
        ackOrdered_step hSide hOrdered hSound hGuard hStep⟩
    · exact ⟨rfl, sound_new .., ackOrdered_new ..⟩
  exact hInv.2

variable {s : System}

theorem System.ackOrdered_step {s' : System} {a : SystemAction} (hInv : s.Coherent)
    (hOrdered : s.agent.core.AckOrdered) (hKeeps : s.keepsAckFirst a) (h : s.step a = some s') :
    s'.agent.core.AckOrdered := by
  have hAgent : ∀ {b : AgentAction} {agent : AgentSession}, s.agent.keepsAckFirst b →
      s.agent.step b = some agent → agent.core.AckOrdered := fun hKeeps hStep =>
    AgentSession.ackOrdered_step hInv.spawned.side hOrdered hInv.agent hKeeps hStep
  cases a with
  | edge =>
    simp only [step] at h
    split_ifs at h
    obtain ⟨_, -, rfl⟩ := map_eq_some_iff.mp h
    exact hOrdered
  | agent =>
    simp only [step] at h
    split_ifs at h
    obtain ⟨_, hStep, rfl⟩ := map_eq_some_iff.mp h
    exact hAgent hKeeps hStep
  | toAgent =>
    simp only [step, bind_eq_bind] at h
    obtain ⟨_, -, h⟩ := bind_eq_some_iff.mp h
    obtain ⟨_, hStep, h⟩ := bind_eq_some_iff.mp h
    cases h
    exact hAgent rfl hStep
  | toEdge =>
    simp only [step, bind_eq_bind] at h
    obtain ⟨_, hStep, h⟩ := bind_eq_some_iff.mp h
    obtain ⟨_, -, h⟩ := bind_eq_some_iff.mp h
    cases h
    exact hAgent rfl hStep

theorem System.ackOrdered_run {edgeLimits agentLimits : SessionLimits} {commandCapacity : Nat}
    {acts : List SystemAction} (hKeeps : Guarded System.step (fun s a => s.keepsAckFirst a)
      (.new edgeLimits agentLimits commandCapacity hasShutdown) acts) (hRun : exec System.step
      (.new edgeLimits agentLimits commandCapacity hasShutdown) acts = some s) :
    s.Coherent ∧ s.agent.core.AckOrdered := by
  refine exec_induction_guarded
    (P := fun s => s.Coherent ∧ s.agent.core.AckOrdered) ?_ ?_ hKeeps hRun
  · rintro _ _ _ ⟨hInv, hOrdered⟩ hGuard hStep
    exact ⟨coherent_step hInv hStep, ackOrdered_step hInv hOrdered hGuard hStep⟩
  · exact ⟨coherent_new .., ackOrdered_new ..⟩

/-- The first frame an Edge task consumes carries no data: the acknowledgement was
written before it, and nothing on the stream is older than the task. -/
theorem System.Coherent.first_consumed (hInv : s.Coherent) (hOrdered : s.agent.core.AckOrdered)
    {t : StreamTask} (ht : t ∈ s.edge.core.tasks) {frame : Frame}
    (hHead : t.consumed.head? = some frame) : carriesData frame = false := by
  by_contra hData
  have hData : carriesData frame = true := by simpa using hData
  -- The frame is the first one of its stream that the Edge received after the spawn.
  obtain ⟨_, hConsumed⟩ := head?_eq_some_iff.mp hHead
  obtain ⟨_, hMore⟩ := hInv.edge.received.inOrder t ht
  rw [hConsumed, cons_append, cons_append] at hMore
  obtain ⟨before, after, hSplit, hNone, hMatch, -⟩ := filter_eq_cons_iff.mp hMore.symm
  have hId : frame.streamId = t.id := by
    simp only [Bool.and_eq_true, decide_eq_true_eq] at hMatch
    exact hMatch.1
  -- It stands at the same place on the wire, after its acknowledgement.
  obtain ⟨_, hWire⟩ := hInv.toEdge.received hInv.agent hInv.edge
  rw [← take_append_drop t.born s.edge.core.received, hSplit, ← append_assoc,
    append_assoc] at hWire
  let early := s.edge.core.received.take t.born ++ before
  have hAt : s.agent.core.pipe.startedFrames[early.length]? = some frame := by
    rw [← hWire]
    simp [early]
  have hTake : s.agent.core.pipe.startedFrames.take early.length = early := by
    rw [← hWire, take_left]
  rw [Pipeline.startedFrames, getElem?_map] at hAt
  obtain ⟨o, ho, rfl⟩ := map_eq_some_iff.mp hAt
  obtain ⟨ack, hAck, hOpen, -, hAckId⟩ := hOrdered.pipe.ordered _ o ho hData
  have hMem : ack.frame ∈ early := by
    rw [← hTake, Pipeline.startedFrames, ← map_take]
    exact mem_map_of_mem hAck
  have hAckId : ack.frame.streamId = t.id := hAckId.trans hId
  have hType : ack.frame.frameType = .openStream := by simpa [isOpen] using hOpen
  rcases mem_append.mp hMem with hOld | hNew
  · exact hInv.edgeUnheard _ (mem_births ht) _ hOld hAckId
  · refine hNone _ hNew ?_
    simp [hAckId, forwards, hType, hInv.numbered.side]

/-- **The acknowledgement comes first, as long as the writer does not skip it.** In
every run of an Agent session without a skipped acknowledgement, the bytes on the wire
are those of the started frames in order, and every data frame follows the
`OPEN_STREAM` of its task; in every such run together with an Edge session, no Edge
task finds data where it waits for the answer to its open. -/
theorem ack_before_data (agentLimits : SessionLimits) (hasShutdown : Bool) :
    (∀ (acts : List AgentAction) (s : AgentSession),
      Guarded AgentSession.step (fun s a => s.keepsAckFirst a)
        (.new agentLimits hasShutdown) acts →
      exec AgentSession.step (.new agentLimits hasShutdown) acts = some s →
      s.core.pipe.bytesOut <+: encodeAll (s.core.pipe.started.map Outbound.frame) ∧
      ∀ (k : Nat) (o : Outbound), s.core.pipe.started[k]? = some o → o.isData →
        ∃ ack ∈ s.core.pipe.started.take k, ack.frame.frameType = .openStream ∧
          ack.origin = o.origin ∧ ack.streamId = o.streamId) ∧
    (∀ (edgeLimits : SessionLimits) (commandCapacity : Nat) (acts : List SystemAction)
      (s : System),
      Guarded System.step (fun s a => s.keepsAckFirst a)
        (.new edgeLimits agentLimits commandCapacity hasShutdown) acts →
      exec System.step
        (.new edgeLimits agentLimits commandCapacity hasShutdown) acts = some s →
      ∀ t ∈ s.edge.core.tasks, ∀ frame, t.consumed.head? = some frame →
        frame.frameType ≠ .data ∧ frame.frameType ≠ .endStream) := by
  refine ⟨fun acts s hKeeps hRun => ?_, fun edgeLimits commandCapacity acts s hKeeps hRun => ?_⟩
  · obtain ⟨hSound, hOrdered⟩ := AgentSession.ackOrdered_run hKeeps hRun
    refine ⟨hSound.sent.framed.cut, fun k o ho hData => ?_⟩
    obtain ⟨ack, hAck, hOpen, hOrigin, hId⟩ := hOrdered.pipe.ordered k o ho hData
    exact ⟨ack, hAck, by simpa [isOpen] using hOpen, hOrigin, hId⟩
  · obtain ⟨hInv, hOrdered⟩ := System.ackOrdered_run hKeeps hRun
    intro _ ht _ hHead
    have hNone := hInv.first_consumed hOrdered ht hHead
    simpa [carriesData] using hNone

namespace AckExample

open DeliveryExample

/-- The Edge opens a stream; the Agent's connection to the local service is slow. -/
def openSlowly : List (List SystemAction) :=
  [[.edge (.enqueue .open), .edge .command], edge [.task 0 .sent], edge (writeControl 16),
    [.toAgent 16, .agent (.decode 16)]]

/-- A PING of the Edge reaches the Agent, which queues its PONG. -/
def ping : List (List SystemAction) :=
  [[.edge .heartbeat, .edge .sent], edge (writeControl 24),
    [.toAgent 24, .agent (.decode 16), .agent (.decode 8), .agent .sent]]

/-- The PONG reaches the Edge. -/
def pong : List (List SystemAction) :=
  [agent (writeControl 24), [.toEdge 24, .edge (.decode 16), .edge (.decode 8)]]

/-- While the eighth PONG is being written, the local service accepts and answers. -/
def eighthPong : List (List SystemAction) :=
  [agent [.writer .turn, .writer .turn],
    agent [.task 0 .connected, .task 0 .sent, .task 0 (.read [9]), .task 0 .sent],
    agent [.writer (.wrote 24)], agent (writeData 1 17)]

def overtaking : List SystemAction :=
  (openSlowly ++ (List.replicate 7 (ping ++ pong)).flatten ++ ping ++ eighthPong ++
    [[.toEdge 41, .edge (.decode 16), .edge (.decode 8), .edge (.decode 16), .edge (.decode 1)],
      edge [.task 0 .recv]]).flatten

/-- Data is on the wire and no acknowledgement is. -/
def overtaken (p : Pipeline) : Bool := p.started.any Outbound.isData && !p.started.any isOpen

/-- A task got data first and rejected its stream. -/
def rejects (t : StreamTask) : Bool :=
  t.consumed.head?.any carriesData &&
    t.response.any fun
      | .error (.streamRejected .protocolViolation) => true
      | _ => false

/-- A request is acknowledged and answered. -/
def answered : List AgentAction :=
  [.core (.arrive (encodeHeader .openStream 0 1 0)), .decode 16, .core (.task 0 .connected),
    .core (.task 0 .sent), .core (.task 0 (.read [9])), .core (.task 0 .sent),
    .core (.writer .turn), .core (.writer .turn), .core (.writer .turn),
    .core (.writer (.wrote 16)),
    .core (.writer .turn), .core (.writer .turn), .core (.writer .turn)]

end AckExample

open AckExample DeliveryExample Sample in
/-- **Eight heartbeats let data overtake the acknowledgement.** An honest Edge and an
honest Agent reach a state in which data of the stream is on the wire, its
acknowledgement is not, and the Edge has rejected the stream as a protocol violation. -/
theorem data_before_ack :
    ∃ s, exec System.step (.new limits limits 1 false) overtaking = some s ∧
      overtaken s.agent.core.pipe = true ∧ ∃ t ∈ s.edge.core.tasks, rejects t = true := by
  decide +kernel

open AckExample DeliveryExample Sample in
/-- Sessions that stay within the condition: data follows its acknowledgement on the
Agent's wire, and an Edge task has consumed it first. -/
theorem ack_before_data_sessions :
    (∃ s, exec AgentSession.step (.new limits false) answered = some s ∧
      ∃ ack ∈ s.core.pipe.started.take 1, ack.frame.frameType = .openStream) ∧
    ∃ s, exec System.step (.new limits limits 1 false) session = some s ∧
      ∀ t ∈ s.edge.core.tasks, ∀ frame, t.consumed.head? = some frame →
        frame.frameType ≠ .data ∧ frame.frameType ≠ .endStream := by
  obtain ⟨s, hs, hData⟩ : ∃ s, exec AgentSession.step (.new limits false) answered = some s ∧
      s.core.pipe.started[1]?.any Outbound.isData := by decide +kernel
  obtain ⟨sys, hSys, -⟩ : ∃ sys, exec System.step (.new limits limits 1 false) session = some sys ∧
      delivered sys := by decide +kernel
  refine ⟨⟨s, hs, ?_⟩, sys, hSys, ?_⟩
  · cases ho : s.core.pipe.started[1]? with
    | none => simp [ho] at hData
    | some o =>
      obtain ⟨ack, hMem, hType, -⟩ := ((ack_before_data limits false).1 answered s
        (by decide +kernel) hs).2 1 o ho (by simpa [ho] using hData)
      exact ⟨ack, hMem, hType⟩
  · exact (ack_before_data limits false).2 limits 1 session sys (by decide +kernel) hSys

end TunnelProxy.Mux
