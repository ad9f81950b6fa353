import TunnelProxy.Mux.Relay
import TunnelProxy.Mux.Writer

/-!
# The common core of a multiplexed session

`run_edge_session` and `run_multiplexed_inner` have the same skeleton: a dispatch
loop that decodes frames and owns the stream map, one task per stream, and the
writer. `Core` is that skeleton, and the functions here are the parts that are
the same on both sides. `Edge` and `Agent` build their dispatch loops from them.

Everything that runs concurrently is interleaved at its `await` points: a step is
one event of one stream task, one turn of the writer, one `read` of the dispatch
loop, or bytes arriving from or departing to the peer.
-/

namespace TunnelProxy.Mux

open Protocol Std Option

/-- The validated sizes of a session: every one is non-zero. -/
structure SessionLimits where
  maxStreams : Nat
  perStreamQueue : Nat
  controlQueue : Nat
  dataQueue : Nat
  maxStreams_pos : 0 < maxStreams
  perStreamQueue_pos : 0 < perStreamQueue
  controlQueue_pos : 0 < controlQueue
  dataQueue_pos : 0 < dataQueue

inductive SessionError where
  | protocolDecode (error : ProtocolError)
  /-- The writer's queues are closed. -/
  | closedWriter
  /-- The writer ended with an error. -/
  | writerFailed
  | invalidHeartbeatPayload (frameType : FrameType)
  | heartbeatSequenceMismatch (expected got : Nat)
  | heartbeatTimeout (sequence : Nat)
  | heartbeatSequenceExhausted
  | heartbeatRejected (payload : List UInt8)
  | unexpectedFrame (frameType : FrameType)
  | protocolViolation (reason : String)
deriving DecidableEq, Repr

inductive SessionCloseReason where
  | peerClosed
  | localShutdown
  /-- The Edge session has one normal result. -/
  | completed
deriving DecidableEq, Repr

/-- Where the dispatch loop is. -/
inductive Dispatch where
  | select
  /-- Waiting for room on the control queue. -/
  | sending (frame : Frame)
  /-- Agent, after the loop: waiting for the stream tasks. -/
  | joining
  /-- After the loop, with its own senders dropped. -/
  | awaitWriter
  | returned (error : Option SessionError) (reason : SessionCloseReason)
deriving DecidableEq

namespace Dispatch

def isReturned : Dispatch → Bool
  | returned _ _ => true
  | _ => false

/-- The dispatch function still holds its clones of the queue senders. -/
def holdsSenders : Dispatch → Bool
  | select | sending _ | joining => true
  | awaitWriter | returned _ _ => false

/-- The dispatch loop has not ended. -/
def looping : Dispatch → Bool
  | select | sending _ => true
  | _ => false

end Dispatch

structure Core where
  side : Side
  limits : SessionLimits
  pipe : Pipeline
  /-- The queue of `Closed` events. -/
  events : List StreamId
  /-- The stream map; a value is the index of the task that holds the receiver. -/
  streams : ExtTreeMap StreamId Nat
  /-- All tasks ever spawned, in order. -/
  tasks : List StreamTask
  decoder : FrameDecoder
  dispatch : Dispatch
  /-- The stream tasks have been cancelled and stop at their `await`. -/
  aborting : Bool
  incoming : List UInt8
  eof : Bool
  -- History.
  received : List Frame
  bytesIn : List UInt8

namespace Core

def new (side : Side) (limits : SessionLimits) : Core where
  side := side
  limits := limits
  pipe := .new limits.controlQueue limits.dataQueue
  events := []
  streams := ∅
  tasks := []
  decoder := .new
  dispatch := .select
  aborting := false
  incoming := []
  eof := false
  received := []
  bytesIn := []

/-- How many stream tasks are running. -/
def runningTasks (c : Core) : Nat := c.tasks.countP StreamTask.running

/-- No sender of the writer's queues is left. -/
def disconnected (c : Core) : Bool :=
  !c.dispatch.holdsSenders && c.tasks.all (!·.running)

/-! ## Stream tasks -/

def setTask (c : Core) (i : Nat) (t : StreamTask) : Core :=
  { c with tasks := c.tasks.set i t }

/-- The queue a task waits for has room and takes its item. -/
def taskSent (c : Core) (i : Nat) (t : StreamTask) : Option Core := do
  let t' ← t.step .sent
  match t.pendingSend with
  | some (.control frame) =>
    let pipe ← c.pipe.pushControl ⟨some i, frame⟩
    some { c.setTask i t' with pipe }
  | some (.data frame) =>
    let pipe ← c.pipe.pushData ⟨some i, frame⟩
    some { c.setTask i t' with pipe }
  | some .closed =>
    if c.dispatch.isReturned = false ∧ c.events.length < c.limits.maxStreams then
      some { c.setTask i t' with events := c.events ++ [t.id] }
    else none
  | none => none

/-- The queue a task waits for has lost its receiver. -/
def taskSendFailed (c : Core) (i : Nat) (t : StreamTask) : Option Core := do
  let t' ← t.step .sendFailed
  match t.pendingSend with
  | some (.control _) | some (.data _) => if c.pipe.alive then none else some (c.setTask i t')
  | some .closed => if c.dispatch.isReturned then some (c.setTask i t') else none
  | none => none

/-- `recv` returns `None` only once the map's sender is gone. -/
def taskRecvClosed (c : Core) (i : Nat) (t : StreamTask) : Option Core :=
  if c.streams[t.id]? = some i then none
  else (t.step .recvClosed).map (c.setTask i)

def taskStep (c : Core) (i : Nat) (e : TaskEvent) : Option Core :=
  c.tasks[i]?.bind fun t =>
    match e with
    | .sent => c.taskSent i t
    | .sendFailed => c.taskSendFailed i t
    | .recvClosed => c.taskRecvClosed i t
    | e => (t.step e).map (c.setTask i)

/-- A cancelled task stops at its `await`. -/
def abortTask (c : Core) (i : Nat) : Option Core :=
  c.tasks[i]?.bind fun t =>
    if c.aborting ∧ t.running then some (c.setTask i t.drop) else none

/-! ## Everything but the dispatch loop -/

inductive CoreAction where
  | task (i : Nat) (e : TaskEvent)
  | abort (i : Nat)
  | writer (a : Pipeline.WriterAction)
  /-- The transport delivers bytes of the peer. -/
  | arrive (bytes : List UInt8)
  | arriveEof
  /-- The transport takes bytes for the peer. -/
  | depart (n : Nat)
deriving DecidableEq

def step (c : Core) : CoreAction → Option Core
  | .task i e => c.taskStep i e
  | .abort i => c.abortTask i
  | .writer a => (c.pipe.step c.disconnected a).map fun pipe => { c with pipe }
  | .arrive bytes => if c.eof then none else some { c with incoming := c.incoming ++ bytes }
  | .arriveEof => some { c with eof := true }
  | .depart n =>
    if n ≤ c.pipe.outgoing.length then some { c with pipe := c.pipe.depart n } else none

/-! ## Parts of the dispatch loops -/

/-- An early return: the map and the loop's channel ends are dropped, and on the
Agent the `JoinSet` with them, which cancels the tasks. -/
def fail (c : Core) (error : SessionError) : Core :=
  { c with
    streams := ∅
    dispatch := .returned (some error) .completed
    aborting := c.aborting || c.side = .agent }

/-- `break`: the map is cleared and the rest of the function runs. -/
def endLoop (c : Core) : Core :=
  { c with
    streams := ∅
    dispatch := match c.side with
      | .edge => .awaitWriter
      | .agent => .joining }

/-- Starts to send a control frame of the loop's own. -/
def send (c : Core) (frame : Except ProtocolError Frame) : Core :=
  match frame with
  | .ok frame => { c with dispatch := .sending frame }
  | .error error => c.fail (.protocolDecode error)

def sendReset (c : Core) (streamId : StreamId) (code : StreamResetCode) : Core :=
  c.send (Frame.stream streamId .resetStream code.toBeBytes)

/-- The control queue took the loop's frame. -/
def sent (c : Core) : Option (Frame × Core) :=
  match c.dispatch with
  | .sending frame =>
    (c.pipe.pushControl ⟨none, frame⟩).map fun pipe =>
      (frame, { c with pipe, dispatch := .select })
  | _ => none

def sendFailed (c : Core) : Option Core :=
  match c.dispatch with
  | .sending _ => if c.pipe.alive then none else some (c.fail .closedWriter)
  | _ => none

/-- A frame that completes a read. -/
def completed : Option (Except ProtocolError Frame) → List Frame
  | some (.ok frame) => [frame]
  | _ => []

/-- One `read` of the decoder with `n` bytes. -/
def read (c : Core) (n : Nat) : Option (Option (Except ProtocolError Frame) × Core) :=
  if c.dispatch = .select ∧ 0 < n ∧ n ≤ c.incoming.length ∧ n ≤ c.decoder.wanted then
    let chunk := c.incoming.take n
    let fed := c.decoder.feed chunk
    some (fed.2, { c with
      incoming := c.incoming.drop n
      decoder := fed.1
      received := c.received ++ completed fed.2
      bytesIn := c.bytesIn ++ chunk })
  else none

/-- The transport ended and every byte of it was read. -/
def readEof (c : Core) : Option (Except ProtocolError Unit) :=
  if c.dispatch = .select ∧ c.eof ∧ c.incoming = [] then some c.decoder.feedEof else none

def removeStream (c : Core) (streamId : StreamId) : Core :=
  { c with streams := c.streams.erase streamId }

/-- A reset of the peer is never answered. -/
def rejectFrame (c : Core) (frame : Frame) : Core :=
  if frame.frameType = .resetStream then c else c.sendReset frame.streamId .unknownStream

/-- `try_send` to the stream's queue: closed, full, or room for the frame. -/
def deliver (c : Core) (i : Nat) (frame : Frame) : Core :=
  match c.tasks[i]? with
  | some t =>
    if !t.running then (c.removeStream frame.streamId).rejectFrame frame
    else if t.inbound.length < c.limits.perStreamQueue then
      c.setTask i { t with inbound := t.inbound ++ [frame] }
    else (c.removeStream frame.streamId).sendReset frame.streamId .flowControlExceeded
  | none => c

/-- The arm for the frames of a stream. -/
def forward (c : Core) (frame : Frame) : Core :=
  if frame.frameType = .data ∧ multiplexedDataPayloadSize < frame.payload.length then
    (c.removeStream frame.streamId).sendReset frame.streamId .flowControlExceeded
  else match c.streams[frame.streamId]? with
    | some i => c.deliver i frame
    | none => c.rejectFrame frame

/-- The frame types that a side forwards to its stream tasks. -/
def forwards (side : Side) (frame : Frame) : Bool :=
  match frame.frameType with
  | .data | .endStream | .resetStream => true
  | .openStream => side = .edge
  | _ => false

/-- Inserts the stream and spawns its task. Callers hold a non-zero id. -/
def spawn (c : Core) (streamId : StreamId) : Core :=
  if hId : streamId ≠ StreamId.control then
    { c with
      streams := c.streams.insert streamId c.tasks.length
      tasks := c.tasks ++ [StreamTask.start c.side streamId hId c.received.length] }
  else c

/-- `event_rx.recv()` -/
def closedEvent (c : Core) : Option Core :=
  match c.dispatch, c.events with
  | .select, streamId :: rest => some ({ c with events := rest }.removeStream streamId)
  | _, _ => none

/-- The writer's result; `none` while it runs. -/
def writerDone (c : Core) : Option Bool :=
  match c.pipe.phase with
  | .done ok => some ok
  | _ => none

/-- The function returns with the writer's result. -/
def returnWith (c : Core) (reason : SessionCloseReason) : Option Core :=
  c.writerDone.map fun ok =>
    { c with
      streams := ∅
      dispatch := .returned (if ok then none else some .writerFailed) reason
      aborting := c.aborting || c.side = .agent }

/-! ## What a step of the core does -/

/-- The effect of one step outside the dispatch loop. -/
inductive Effect (c : Core) : CoreAction → Core → Prop where
  | task (i : Nat) (t t' : StreamTask) (e : TaskEvent) (hTask : c.tasks[i]? = some t)
      (hStep : t.step e = some t') (hEvent : e ≠ .sent)
      (hOpen : e = .recvClosed → c.streams[t.id]? ≠ some i) :
      Effect c (.task i e) (c.setTask i t')
  | control (i : Nat) (t t' : StreamTask) (frame : Frame) (pipe : Pipeline)
      (hTask : c.tasks[i]? = some t) (hStep : t.step .sent = some t')
      (hSend : t.pendingSend = some (.control frame))
      (hPush : c.pipe.pushControl ⟨some i, frame⟩ = some pipe) :
      Effect c (.task i .sent) { c.setTask i t' with pipe := pipe }
  | data (i : Nat) (t t' : StreamTask) (frame : Frame) (pipe : Pipeline)
      (hTask : c.tasks[i]? = some t) (hStep : t.step .sent = some t')
      (hSend : t.pendingSend = some (.data frame))
      (hPush : c.pipe.pushData ⟨some i, frame⟩ = some pipe) :
      Effect c (.task i .sent) { c.setTask i t' with pipe := pipe }
  | closed (i : Nat) (t t' : StreamTask) (hTask : c.tasks[i]? = some t)
      (hStep : t.step .sent = some t') (hSend : t.pendingSend = some .closed) :
      Effect c (.task i .sent) { c.setTask i t' with events := c.events ++ [t.id] }
  | abort (i : Nat) (t : StreamTask) (hTask : c.tasks[i]? = some t) (hRuns : t.running)
      (hAborting : c.aborting = true) : Effect c (.abort i) (c.setTask i t.drop)
  | writer (a : Pipeline.WriterAction) (pipe : Pipeline)
      (hStep : c.pipe.step c.disconnected a = some pipe) :
      Effect c (.writer a) { c with pipe := pipe }
  | arrive (bytes : List UInt8) :
      Effect c (.arrive bytes) { c with incoming := c.incoming ++ bytes }
  | arriveEof : Effect c .arriveEof { c with eof := true }
  | depart (n : Nat) (hRoom : n ≤ c.pipe.outgoing.length) :
      Effect c (.depart n) { c with pipe := c.pipe.depart n }

variable {c' : Core} {i : Nat} {frame : Frame}

variable {c : Core}

theorem taskSent_effect {t : StreamTask} (hTask : c.tasks[i]? = some t)
    (h : c.taskSent i t = some c') : Effect c (.task i .sent) c' := by
  unfold taskSent at h
  cases hStep : t.step .sent with
  | none => simp [hStep] at h
  | some t' =>
    simp only [hStep, bind_eq_bind, bind_some] at h
    split at h
    · rename_i frame hSend
      obtain ⟨pipe, hPush, h⟩ := bind_eq_some_iff.mp h
      cases h
      exact .control i t t' frame pipe hTask hStep hSend hPush
    · rename_i frame hSend
      obtain ⟨pipe, hPush, h⟩ := bind_eq_some_iff.mp h
      cases h
      exact .data i t t' frame pipe hTask hStep hSend hPush
    · rename_i hSend
      split_ifs at h
      cases h
      exact .closed i t t' hTask hStep hSend
    · cases h

theorem taskSendFailed_effect {t : StreamTask} (hTask : c.tasks[i]? = some t)
    (h : c.taskSendFailed i t = some c') : Effect c (.task i .sendFailed) c' := by
  unfold taskSendFailed at h
  cases hStep : t.step .sendFailed with
  | none => simp [hStep] at h
  | some t' =>
    have hEffect : Effect c (.task i .sendFailed) (c.setTask i t') :=
      .task i t t' _ hTask hStep (by simp) (by simp)
    simp only [hStep, bind_eq_bind, bind_some] at h
    split at h
    iterate 3
      · split_ifs at h
        cases h
        exact hEffect
    · cases h

theorem taskStep_effect {e : TaskEvent} (h : c.taskStep i e = some c') :
    Effect c (.task i e) c' := by
  unfold taskStep at h
  obtain ⟨t, hTask, h⟩ := bind_eq_some_iff.mp h
  split at h
  · exact taskSent_effect hTask h
  · exact taskSendFailed_effect hTask h
  · unfold taskRecvClosed at h
    split_ifs at h with hOpen
    obtain ⟨t', hStep, rfl⟩ := map_eq_some_iff.mp h
    exact .task i t t' _ hTask hStep (by simp) (fun _ => hOpen)
  · rename_i hSent hFailed hClosed
    obtain ⟨t', hStep, rfl⟩ := map_eq_some_iff.mp h
    exact .task i t t' e hTask hStep hSent (fun hEq => absurd hEq hClosed)

/-- **Inversion.** Every step of the core is one of the effects. -/
theorem step_effect {a : CoreAction} (h : c.step a = some c') : Effect c a c' := by
  cases a with
  | task => exact taskStep_effect h
  | abort i =>
    simp only [step, abortTask] at h
    obtain ⟨t, hTask, h⟩ := bind_eq_some_iff.mp h
    split_ifs at h with hAbort
    cases h
    exact .abort i t hTask hAbort.2 hAbort.1
  | writer a =>
    simp only [step] at h
    obtain ⟨pipe, hStep, rfl⟩ := map_eq_some_iff.mp h
    exact .writer a pipe hStep
  | arrive bytes =>
    simp only [step] at h
    split_ifs at h
    cases h
    exact .arrive bytes
  | arriveEof =>
    cases h
    exact .arriveEof
  | depart n =>
    simp only [step] at h
    split_ifs at h with hRoom
    cases h
    exact .depart n hRoom

/-! ## Forwarding a frame -/

theorem sendReset_eq {streamId : StreamId} (hId : streamId ≠ StreamId.control)
    (code : StreamResetCode) :
    ∃ reply, c.sendReset streamId code = { c with dispatch := .sending reply } ∧
      reply.frameType = .resetStream ∧ reply.streamId = streamId ∧
      reply.payload = code.toBeBytes := by
  have hLen : code.toBeBytes.length ≤ maxFramePayload := code.length_toBeBytes ▸ by decide
  let reply := Frame.onStream streamId hId .resetStream rfl code.toBeBytes hLen
  have hOk : Frame.stream streamId .resetStream code.toBeBytes = .ok reply :=
    Frame.new_eq_ok.mpr ⟨rfl, rfl, rfl, rfl⟩
  refine ⟨reply, ?_, rfl, rfl, rfl⟩
  rw [sendReset, hOk]
  rfl

theorem streamId_ne_control (h : frame.frameType.scope = .stream) :
    frame.streamId ≠ StreamId.control := by
  simpa [ScopeOk, h] using frame.scope_ok

/-- The dispatch loop goes on, or answers the frame's stream with a reset. -/
def Answers (c : Core) (frame : Frame) (next : Dispatch) : Prop :=
  next = c.dispatch ∨ ∃ reply, next = .sending reply ∧ reply.frameType = .resetStream ∧
      reply.streamId = frame.streamId

/-- The map entry of a stream belongs to a task that still runs. -/
def entryRuns (c : Core) (streamId : StreamId) : Bool :=
  match c.streams[streamId]? with
  | some i => c.tasks[i]?.any StreamTask.running
  | none => false

/-- The inbound queue of a stream has no room. -/
def queueFull (c : Core) (streamId : StreamId) : Bool :=
  match c.streams[streamId]? with
  | some i => c.tasks[i]?.any fun t => c.limits.perStreamQueue ≤ t.inbound.length
  | none => false

/-- A frame that breaks the flow control of a stream whose task still runs: a DATA
frame above the payload limit, or a frame for which the queue has no room. -/
def overflows (c : Core) (frame : Frame) : Bool :=
  c.entryRuns frame.streamId &&
    (frame.frameType = .data && multiplexedDataPayloadSize < frame.payload.length ||
      c.queueFull frame.streamId)

/-- What forwarding a frame does. -/
inductive Forwarded (c : Core) (frame : Frame) : Core → Prop where
  | delivered (i : Nat) (t : StreamTask) (hEntry : c.streams[frame.streamId]? = some i)
      (hTask : c.tasks[i]? = some t) (hRuns : t.running)
      (hSmall : frame.frameType = .data → frame.payload.length ≤ multiplexedDataPayloadSize) :
      Forwarded c frame (c.setTask i { t with inbound := t.inbound ++ [frame] })
  | removed (next : Dispatch) (hNext : Answers c frame next)
      (hWhy : c.overflows frame ∨ c.entryRuns frame.streamId = false) :
      Forwarded c frame { c.removeStream frame.streamId with dispatch := next }
  | ignored (next : Dispatch) (hNext : Answers c frame next)
      (hEntry : ∀ i t, c.streams[frame.streamId]? = some i → c.tasks[i]? ≠ some t) :
      Forwarded c frame { c with dispatch := next }

theorem sendReset_answers (h : forwards c.side frame) (code : StreamResetCode) :
    ∃ next, Answers c frame next ∧
      c.sendReset frame.streamId code = { c with dispatch := next } := by
  have hScope : frame.frameType.scope = .stream := by
    unfold forwards at h
    cases hType : frame.frameType <;> simp [hType] at h <;> rfl
  obtain ⟨reply, hEq, hType, hId, -⟩ := sendReset_eq (c := c) (streamId_ne_control hScope) code
  exact ⟨_, .inr ⟨reply, rfl, hType, hId⟩, hEq⟩

theorem rejectFrame_answers (h : forwards c.side frame) :
    ∃ next, Answers c frame next ∧ c.rejectFrame frame = { c with dispatch := next } := by
  unfold rejectFrame
  split_ifs
  · exact ⟨c.dispatch, .inl rfl, rfl⟩
  · exact sendReset_answers h _

/-- **Inversion of the forwarding arm.** -/
theorem forward_cases (h : forwards c.side frame) :
    Forwarded c frame (c.forward frame) := by
  unfold forward
  split
  · rename_i hLarge
    obtain ⟨next, hNext, hEq⟩ :=
      sendReset_answers (c := c.removeStream frame.streamId) h .flowControlExceeded
    rw [hEq]
    refine .removed next hNext ?_
    cases hRuns : c.entryRuns frame.streamId with
    | false => exact .inr rfl
    | true => exact .inl (by simp [overflows, hRuns, hLarge])
  · rename_i hSmall
    split
    · rename_i i hEntry
      unfold deliver
      split
      · rename_i t hTask
        split
        · rename_i hEnded
          obtain ⟨next, hNext, hEq⟩ := rejectFrame_answers (c := c.removeStream frame.streamId) h
          rw [hEq]
          exact .removed next hNext (.inr (by simpa [entryRuns, hEntry, hTask] using hEnded))
        · rename_i hRuns
          have hRuns : t.running := by simpa using hRuns
          split
          · refine .delivered i t hEntry hTask hRuns fun hData => ?_
            simpa [hData] using hSmall
          · rename_i hFull
            obtain ⟨next, hNext, hEq⟩ :=
              sendReset_answers (c := c.removeStream frame.streamId) h .flowControlExceeded
            rw [hEq]
            refine .removed next hNext (.inl ?_)
            simp [overflows, entryRuns, queueFull, hEntry, hTask, hRuns, Nat.le_of_not_lt hFull]
      · rename_i hNone
        exact .ignored c.dispatch (.inl rfl) fun j t hj hEq => by
          rw [hEntry, Option.some.injEq] at hj
          rw [← hj, hNone] at hEq
          cases hEq
    · rename_i hNone
      obtain ⟨next, hNext, hEq⟩ := rejectFrame_answers (c := c) h
      rw [hEq]
      exact .ignored next hNext fun i t hi => by rw [hNone] at hi; cases hi

/-! ## What a step of a dispatch loop does -/

/-- A loop that stops, or has stopped and goes on to its next `await`: the map is
cleared and everything else stays. -/
structure Stops (c c' : Core) : Prop where
  side : c'.side = c.side
  limits : c'.limits = c.limits
  pipe : c'.pipe = c.pipe
  events : c'.events = c.events
  streams : c'.streams = ∅ ∨ c'.streams = c.streams ∧ c.dispatch.looping = false
  tasks : c'.tasks = c.tasks
  decoder : c'.decoder = c.decoder
  looping : c'.dispatch.looping = false
  holds : c'.dispatch.holdsSenders → c.dispatch.holdsSenders
  incoming : c'.incoming = c.incoming
  received : c'.received = c.received
  bytesIn : c'.bytesIn = c.bytesIn

/-- What the loop does with the result of a read. -/
inductive Handled (c : Core) : Option (Except ProtocolError Frame) → Core → Prop where
  | incomplete : Handled c none c
  | stop (result : Option (Except ProtocolError Frame)) (c' : Core) (hStop : Stops c c') :
      Handled c result c'
  | keep (frame : Frame) (hType : forwards c.side frame = false) : Handled c (some (.ok frame)) c
  | send (frame reply : Frame) (hType : forwards c.side frame = false)
      (hControl : reply.frameType ≠ .data ∧ reply.frameType ≠ .endStream ∧
        reply.frameType ≠ .openStream)
      (hReply : reply.streamId = frame.streamId) :
      Handled c (some (.ok frame)) { c with dispatch := .sending reply }
  | forward (frame : Frame) (c' : Core) (hType : forwards c.side frame = true)
      (hForward : Forwarded c frame c') :
      Handled c (some (.ok frame)) c'
  | spawn (frame : Frame) (hSide : c.side = .agent) (hType : frame.frameType = .openStream)
      (hFresh : c.streams[frame.streamId]? = none)
      (hRoom : c.streams.size < c.limits.maxStreams) :
      Handled c (some (.ok frame)) (c.spawn frame.streamId)

/-- `checked_add(1).unwrap_or_default()`: after the last id comes the reserved one. -/
def advanceStreamId (id : UInt32) : UInt32 := if id = 0xFFFFFFFF then 0 else id + 1

/-- The actions of a session that the results tell apart. -/
inductive Turn where
  | core (a : CoreAction)
  | decode (n : Nat)
  | event
  | other

/-- The effect of one step of a session on its core. `next` is the id an Edge open
would use, and the second id the one the following open would. -/
inductive SessionEffect (c : Core) (turn : Turn) (next : UInt32) : UInt32 → Core → Prop where
  | core (a : CoreAction) (c' : Core) (hTurn : turn = .core a) (hStep : c.step a = some c') :
      SessionEffect c turn next next c'
  | same : SessionEffect c turn next next c
  | read (n : Nat) (result : Option (Except ProtocolError Frame)) (c₁ c' : Core)
      (hTurn : turn = .decode n) (hRead : c.read n = some (result, c₁))
      (hHandled : Handled c₁ result c') :
      SessionEffect c turn next next c'
  | spawn (hSide : c.side = .edge) (hSelect : c.dispatch = .select)
      (hId : next ≠ StreamId.control) (hRoom : c.streams.size < c.limits.maxStreams) :
      SessionEffect c turn next (advanceStreamId next) (c.spawn next)
  | event (streamId : StreamId) (rest : List StreamId) (hTurn : turn = .event)
      (hSelect : c.dispatch = .select) (hEvents : c.events = streamId :: rest) (c' : Core)
      (hNext : c' = removeStream { c with events := rest } streamId ∨
        Stops (removeStream { c with events := rest } streamId) c') :
      SessionEffect c turn next next c'
  | ping (reply : Frame) (hSelect : c.dispatch = .select) (hType : reply.frameType = .ping)
      (hId : reply.streamId = StreamId.control) :
      SessionEffect c turn next next { c with dispatch := .sending reply }
  | sent (frame : Frame) (pipe : Pipeline) (hSending : c.dispatch = .sending frame)
      (hPush : c.pipe.pushControl ⟨none, frame⟩ = some pipe) (c' : Core)
      (hNext : c' = { c with pipe := pipe, dispatch := .select } ∨
        Stops { c with pipe := pipe, dispatch := .select } c') :
      SessionEffect c turn next next c'
  | stop (c' : Core) (hStop : Stops c c') : SessionEffect c turn next next c'

theorem stops_fail (c : Core) (error : SessionError) : Stops c (c.fail error) := by
  constructor <;> simp [fail, Dispatch.looping, Dispatch.holdsSenders]

theorem stops_endLoop (h : c.dispatch.holdsSenders) : Stops c c.endLoop where
  side := rfl
  limits := rfl
  pipe := rfl
  events := rfl
  streams := .inl rfl
  tasks := rfl
  decoder := rfl
  looping := by cases hSide : c.side <;> simp [endLoop, Dispatch.looping, hSide]
  holds _ := h
  incoming := rfl
  received := rfl
  bytesIn := rfl

theorem stops_returnWith {reason : SessionCloseReason}
    (h : c.returnWith reason = some c') : Stops c c' := by
  obtain ⟨_, -, rfl⟩ := map_eq_some_iff.mp h
  constructor <;> simp [Dispatch.looping, Dispatch.holdsSenders]

end Core

/-! ## A small session -/

namespace Sample

/-- One stream, and room for four of anything else. -/
def limits : SessionLimits := ⟨1, 4, 4, 4, Nat.one_pos, by decide, by decide, by decide⟩

def openBytes (streamId : StreamId) : List UInt8 := encodeHeader .openStream 0 streamId 0

/-- A DATA frame of one byte. -/
def dataBytes (streamId : StreamId) (byte : UInt8) : List UInt8 :=
  encodeHeader .data 0 streamId 1 ++ [byte]

end Sample

end TunnelProxy.Mux
