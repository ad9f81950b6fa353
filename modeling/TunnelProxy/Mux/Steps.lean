import TunnelProxy.Mux.Sessions

/-!
# What a step of a session does to its core

One inversion lemma per side: every step of the Edge or the Agent session acts on
the core in one of the ways `Core.SessionEffect` lists. The invariants of the
sessions are proved from these lemmas and never unfold the dispatch loops again.
-/

namespace TunnelProxy.Mux

open Protocol Mux.Core Option

variable {frame : Frame}

namespace Core

variable {c c' : Core}

/-- A frame for a stream goes to its task, or is rejected. -/
theorem forward_handled (h : forwards c.side frame) :
    Handled c (some (.ok frame)) (c.forward frame) :=
  .forward frame _ h (forward_cases h)

theorem holds_of_select (h : c.dispatch = .select) : c.dispatch.holdsSenders := by
  simp [h, Dispatch.holdsSenders]

/-- What a read changes: decoder, transport bytes and the received frames. -/
theorem read_eq {c₁ : Core} {n : Nat} {result : Option (Except ProtocolError Frame)}
    (h : c.read n = some (result, c₁)) :
    c.dispatch = .select ∧ n ≤ c.incoming.length ∧ n ≤ c.decoder.wanted ∧
      result = (c.decoder.feed (c.incoming.take n)).2 ∧
      c₁ = { c with
        incoming := c.incoming.drop n
        decoder := (c.decoder.feed (c.incoming.take n)).1
        received := c.received ++ completed result
        bytesIn := c.bytesIn ++ c.incoming.take n } := by
  unfold read at h
  split_ifs at h with hOk
  cases h
  exact ⟨hOk.1, hOk.2.2.1, hOk.2.2.2, rfl, rfl⟩

/-- The loop reads only in its `select!`. -/
theorem readEof_select {result : Except ProtocolError Unit} (h : c.readEof = some result) :
    c.dispatch = .select := by
  unfold readEof at h
  split_ifs at h with hOk
  exact hOk.1

/-- The frame that the loop wanted to send is in the control queue. -/
theorem sent_eq (h : c.sent = some (frame, c')) :
    c.dispatch = .sending frame ∧ ∃ pipe, c.pipe.pushControl ⟨none, frame⟩ = some pipe ∧
      c' = { c with pipe, dispatch := .select } := by
  unfold sent at h
  split at h
  · rename_i hSending
    obtain ⟨pipe, hPush, hEq⟩ := map_eq_some_iff.mp h
    cases hEq
    exact ⟨hSending, pipe, hPush, rfl⟩
  · cases h

/-- A stream that has ended leaves the map. -/
theorem closedEvent_eq (h : c.closedEvent = some c') :
    c.dispatch = .select ∧ ∃ streamId rest, c.events = streamId :: rest ∧
      c' = removeStream { c with events := rest } streamId := by
  unfold closedEvent at h
  split at h
  · rename_i streamId rest hSelect hEvents
    cases h
    exact ⟨hSelect, streamId, rest, hEvents, rfl⟩
  · cases h

/-- Without a writer the loop cannot send, and ends. -/
theorem stops_sendFailed (h : c.sendFailed = some c') : Stops c c' := by
  unfold sendFailed at h
  split at h
  · split_ifs at h
    cases h
    exact stops_fail c _
  · cases h

/-- A PING or a PONG of the loop's own is always well formed. -/
theorem send_control_eq {frameType : FrameType} (hScope : frameType.scope = .control)
    (sequence : Nat) : ∃ reply, c.send (Frame.control frameType (BigEndian.be 8 sequence)) =
        { c with dispatch := .sending reply } ∧
      reply.frameType = frameType ∧ reply.streamId = StreamId.control := by
  have hLen : (BigEndian.be 8 sequence).length ≤ maxFramePayload := by
    rw [BigEndian.length_be]
    decide
  have hScopeOk : ScopeOk frameType StreamId.control := by simp [ScopeOk, hScope]
  let reply : Frame := ⟨frameType, 0, StreamId.control, _, rfl, hLen, hScopeOk⟩
  have hOk : Frame.control frameType (BigEndian.be 8 sequence) = .ok reply :=
    Frame.new_eq_ok.mpr ⟨rfl, rfl, rfl, rfl⟩
  exact ⟨reply, by rw [hOk]; rfl, rfl, rfl⟩

end Core

/-! ## Edge -/

/-- What an action is to the core. -/
def EdgeAction.turn : EdgeAction → Turn
  | .core a => .core a
  | .decode n => .decode n
  | .event => .event
  | _ => .other

namespace EdgeSession

variable {s s' : EdgeSession} {a : EdgeAction}

theorem turn_eq_decode {n : Nat} (h : a.turn = .decode n) : a = .decode n := by
  cases a <;> cases h
  rfl

theorem turn_eq_event (h : a.turn = .event) : a = .event := by
  cases a <;> cases h
  rfl

/-- A PONG answers the pending PING, or ends the session. -/
theorem pong_handled (hType : frame.frameType = .pong) :
    Handled s.core (some (.ok frame)) (s.pong frame).core := by
  unfold pong
  split
  · exact .stop _ _ (stops_fail _ _)
  · split
    · exact .stop _ _ (stops_fail _ _)
    · split
      · exact .stop _ _ (stops_fail _ _)
      · exact .keep frame (by simp [forwards, hType])

theorem handleFrame_handled (frame : Frame) (hSide : s.core.side = .edge) :
    Handled s.core (some (.ok frame)) (s.handleFrame frame).core := by
  unfold handleFrame
  split <;> rename_i hType
  · exact pong_handled hType
  · exact forward_handled (by simp [forwards, hType, hSide])
  iterate 3
    · exact forward_handled (by simp [forwards, hType])
  · exact .stop _ _ (stops_fail _ _)
  · exact .stop _ _ (stops_fail _ _)

/-- Only an open uses up a stream id. -/
theorem nextStreamId_handleFrame (frame : Frame) :
    (s.handleFrame frame).nextStreamId = s.nextStreamId := by
  unfold handleFrame
  split
  · unfold pong
    split
    · rfl
    · split
      · rfl
      · split <;> rfl
  all_goals rfl

/-- What the branch for commands does: it ends the loop, or takes a command and goes on. -/
inductive Takes (s : EdgeSession) : EdgeSession → Prop where
  | ends (commands : List SessionCommand) (draining : Bool) :
      Takes s (endLoop { s with commands, draining })
  | opens (rest : List SessionCommand) (hCommands : s.commands = .open :: rest) :
      Takes s (openCommand { s with commands := rest })
  | drains (rest : List SessionCommand) (hCommands : s.commands = .beginDrain :: rest)
      (hStreams : s.core.streams.isEmpty = false) :
      Takes s { s with commands := rest, draining := true }

/-- **Inversion of the branch for commands.** -/
theorem command_takes (h : s.command = some s') : s.core.dispatch = .select ∧ Takes s s' := by
  unfold command at h
  split at h
  · rename_i hSelect
    refine ⟨hSelect, ?_⟩
    split at h
    · rename_i command rest hCommands
      cases h
      cases command with
      | «open» => exact .opens rest hCommands
      | beginDrain =>
        simp only [runCommand]
        split
        · exact .ends rest true
        · rename_i hStreams
          exact .drains rest hCommands (by simpa using hStreams)
      | revokeAuthorization => exact .ends rest s.draining
    · split_ifs at h
      cases h
      exact .ends s.commands s.draining
  · cases h

/-- An open changes the streams and nothing else that a drain looks at. -/
theorem openCommand_eq (s : EdgeSession) :
    s.openCommand.draining = s.draining ∧ s.openCommand.commands = s.commands ∧
      s.openCommand.core.dispatch = s.core.dispatch ∧ s.openCommand.core.events = s.core.events ∧
      s.openCommand.core.pipe = s.core.pipe := by
  unfold openCommand
  split_ifs
  · exact ⟨rfl, rfl, rfl, rfl, rfl⟩
  · exact ⟨rfl, rfl, rfl, rfl, rfl⟩
  · split
    · exact ⟨rfl, rfl, rfl, rfl, rfl⟩
    · unfold spawn
      split <;> exact ⟨rfl, rfl, rfl, rfl, rfl⟩

/-- An open is refused, or spawns a task with the next id. -/
theorem openCommand_effect {turn : Turn} (hSide : s.core.side = .edge)
    (hSelect : s.core.dispatch = .select) :
    SessionEffect s.core turn s.nextStreamId s.openCommand.nextStreamId s.openCommand.core := by
  unfold openCommand
  split_ifs with hDraining hFull
  · exact .same
  · exact .same
  · split
    · exact .same
    · rename_i hNew
      unfold StreamId.new at hNew
      split_ifs at hNew with hZero
      cases hNew
      exact .spawn hSide hSelect hZero (Nat.lt_of_not_le hFull)

/-- A heartbeat finds the last PING unanswered, or has the next one sent. -/
theorem heartbeat_effect {turn : Turn}
    (h : s.heartbeat = some s') :
    SessionEffect s.core turn s.nextStreamId s'.nextStreamId s'.core := by
  unfold heartbeat at h
  split_ifs at h with hSelect
  split at h <;> cases h
  · exact .stop _ (stops_fail _ _)
  · obtain ⟨reply, hEq, hType, hId⟩ :=
      send_control_eq (c := s.core) (rfl : FrameType.ping.scope = .control) s.heartbeatSequence
    simp only [hEq]
    exact .ping reply hSelect hType hId

theorem sent_effect {turn : Turn} (h : s.sent = some s') :
    SessionEffect s.core turn s.nextStreamId s'.nextStreamId s'.core := by
  obtain ⟨⟨frame, _⟩, hSent, rfl⟩ := map_eq_some_iff.mp h
  obtain ⟨hSending, pipe, hPush, rfl⟩ := sent_eq hSent
  dsimp only
  -- after a PING the sequence counts up, and the session fails when it cannot
  split_ifs
  · split
    · exact .sent frame pipe hSending hPush _ (.inl rfl)
    · exact .sent frame pipe hSending hPush _ (.inr (stops_fail _ _))
  · exact .sent frame pipe hSending hPush _ (.inl rfl)

/-- **Inversion of the Edge session.** -/
theorem step_effect (hSide : s.core.side = .edge) (h : s.step a = some s') :
    SessionEffect s.core a.turn s.nextStreamId s'.nextStreamId s'.core := by
  cases a with
  | core a =>
    obtain ⟨core, hStep, rfl⟩ := map_eq_some_iff.mp h
    exact .core a _ rfl hStep
  | enqueue =>
    simp only [step] at h
    split_ifs at h
    cases h
    exact .same
  | dropCommands =>
    cases h
    exact .same
  | decode n =>
    obtain ⟨⟨result, core⟩, hRead, rfl⟩ := map_eq_some_iff.mp h
    -- the frame is handled in the state after the read
    have hSide' : core.side = .edge := by
      obtain ⟨-, -, -, -, rfl⟩ := read_eq hRead
      exact hSide
    match result with
    | none => exact .read n _ core _ rfl hRead .incomplete
    | some (.error e) => exact .read n _ core _ rfl hRead (.stop _ _ (stops_fail _ _))
    | some (.ok frame) =>
      have hHandled := handleFrame_handled (s := { s with core }) frame hSide'
      have hNext := nextStreamId_handleFrame (s := { s with core }) frame
      dsimp only at hNext ⊢
      rw [hNext]
      exact .read n _ core _ rfl hRead hHandled
  | decodeEof =>
    obtain ⟨result, hRead, rfl⟩ := map_eq_some_iff.mp h
    match result with
    | .ok () => exact .stop _ (stops_endLoop (holds_of_select (readEof_select hRead)))
    | .error e => exact .stop _ (stops_fail _ _)
  | decodeErr =>
    simp only [step, decodeErr] at h
    split_ifs at h
    cases h
    exact .stop _ (stops_fail _ _)
  | command =>
    obtain ⟨hSelect, hTakes⟩ := command_takes h
    cases hTakes with
    | ends => exact .stop _ (stops_endLoop (holds_of_select hSelect))
    | opens rest => exact openCommand_effect (s := { s with commands := rest }) hSide hSelect
    | drains => exact .same
  | event =>
    obtain ⟨_, hEvent, rfl⟩ := map_eq_some_iff.mp h
    obtain ⟨hSelect, streamId, rest, hEvents, rfl⟩ := closedEvent_eq hEvent
    unfold drainedLoop
    -- the last stream of a drain ends the loop
    split_ifs
    · exact .event streamId rest rfl hSelect hEvents _
        (.inr (stops_endLoop (holds_of_select hSelect)))
    · exact .event streamId rest rfl hSelect hEvents _ (.inl rfl)
  | heartbeat => exact heartbeat_effect h
  | writerResult | writerJoined =>
    simp only [step] at h
    split_ifs at h
    obtain ⟨_, hReturn, rfl⟩ := map_eq_some_iff.mp h
    exact .stop _ (stops_returnWith hReturn)
  | sent => exact sent_effect h
  | sendFailed =>
    obtain ⟨_, hFailed, rfl⟩ := map_eq_some_iff.mp h
    exact .stop _ (stops_sendFailed hFailed)

end EdgeSession

/-! ## Agent -/

def AgentAction.turn : AgentAction → Turn
  | .core a => .core a
  | .decode n => .decode n
  | .event => .event
  | _ => .other

namespace AgentSession

variable {s s' : AgentSession} {a : AgentAction} {frame : Frame}

theorem turn_eq_decode {n : Nat} (h : a.turn = .decode n) : a = .decode n := by
  cases a <;> cases h
  rfl

theorem turn_eq_event (h : a.turn = .event) : a = .event := by
  cases a <;> cases h
  rfl

/-- An `OPEN_STREAM` that is refused is answered with a reset. -/
theorem refuse_handled (hSide : s.core.side = .agent) (hType : frame.frameType = .openStream)
    (code : StreamResetCode) :
    Handled s.core (some (.ok frame)) (s.core.sendReset frame.streamId code) := by
  have hScope : frame.frameType.scope = .stream := by rw [hType]; rfl
  have hId := streamId_ne_control hScope
  obtain ⟨reply, hEq, hReply, hStream, -⟩ := sendReset_eq (c := s.core) hId code
  rw [hEq]
  refine .send frame reply ?_ ?_ hStream
  · simp [forwards, hType, hSide]
  · simp [hReply]

/-- An `OPEN_STREAM` is refused, or spawns a task. -/
theorem openFrame_handled (hSide : s.core.side = .agent) (hType : frame.frameType = .openStream) :
    Handled s.core (some (.ok frame)) (s.openFrame frame).core := by
  unfold openFrame
  split_ifs with hDraining hKnown hFull
  iterate 3
    · exact refuse_handled hSide hType _
  -- neither draining nor full, and the id is new
  · refine .spawn frame hSide hType ?_ (Nat.lt_of_not_le hFull)
    simp only [Bool.or_eq_true, not_or] at hKnown
    simpa using hKnown.2

/-- A PING is answered with its own sequence. -/
theorem ping_handled (hType : frame.frameType = .ping) (sequence : Nat) :
    Handled s.core (some (.ok frame))
      (s.core.send (Frame.control .pong (BigEndian.be 8 sequence))) := by
  have hControl : frame.streamId = StreamId.control := by
    have hScope := frame.scope_ok
    simpa [ScopeOk, hType, FrameType.scope] using hScope
  obtain ⟨reply, hEq, hReply, hId⟩ :=
    send_control_eq (c := s.core) (rfl : FrameType.pong.scope = .control) sequence
  rw [hEq]
  refine .send frame reply (by simp [forwards, hType]) ?_ (hId.trans hControl.symm)
  simp [hReply]

theorem handleFrame_handled (frame : Frame) (hSide : s.core.side = .agent) :
    Handled s.core (some (.ok frame)) (s.handleFrame frame).core := by
  unfold handleFrame
  split <;> rename_i hType
  · split
    · exact .stop _ _ (stops_fail _ _)
    · exact ping_handled hType _
  · exact openFrame_handled hSide hType
  iterate 3
    · exact forward_handled (by simp [forwards, hType])
  · exact .stop _ _ (stops_fail _ _)
  · exact .stop _ _ (stops_fail _ _)

/-- **Inversion of the Agent session.** -/
theorem step_effect (next : UInt32) (hSide : s.core.side = .agent) (h : s.step a = some s') :
    SessionEffect s.core a.turn next next s'.core := by
  cases a with
  | core a =>
    obtain ⟨core, hStep, rfl⟩ := map_eq_some_iff.mp h
    exact .core a _ rfl hStep
  | raiseShutdown =>
    cases h
    exact .same
  | shutdown =>
    simp only [step, shutdown] at h
    split at h
    · rename_i hReady
      cases h
      split_ifs
      · exact .stop _ (stops_endLoop (holds_of_select hReady.1))
      · exact .same
    · cases h
  | drainDeadline =>
    simp only [step, drainDeadline] at h
    split_ifs at h with hReady
    cases h
    -- the end of the loop, with the tasks aborted as well
    have hStop := stops_endLoop (holds_of_select hReady.1)
    exact .stop _ ⟨rfl, rfl, rfl, rfl, .inl rfl, rfl, rfl, hStop.looping, hStop.holds, rfl, rfl,
      rfl⟩
  | decode n =>
    simp only [step, decode] at h
    split_ifs at h
    obtain ⟨⟨result, core⟩, hRead, rfl⟩ := map_eq_some_iff.mp h
    have hSide' : core.side = .agent := by
      obtain ⟨-, -, -, -, rfl⟩ := read_eq hRead
      exact hSide
    refine .read n result core _ rfl hRead ?_
    match result with
    | none => exact .incomplete
    | some (.error e) => exact .stop _ _ (stops_fail _ _)
    | some (.ok frame) => exact handleFrame_handled (s := { s with core }) frame hSide'
  | decodeEof =>
    simp only [step, decodeEof] at h
    split_ifs at h
    obtain ⟨result, hRead, rfl⟩ := map_eq_some_iff.mp h
    match result with
    | .ok () => exact .stop _ (stops_endLoop (holds_of_select (readEof_select hRead)))
    | .error e => exact .stop _ (stops_fail _ _)
  | decodeErr =>
    simp only [step, decodeErr] at h
    split_ifs at h
    cases h
    exact .stop _ (stops_fail _ _)
  | event =>
    simp only [step, event] at h
    split at h
    · cases h
    · obtain ⟨_, hEvent, rfl⟩ := map_eq_some_iff.mp h
      obtain ⟨hSelect, streamId, rest, hEvents, rfl⟩ := closedEvent_eq hEvent
      refine .event streamId rest rfl hSelect hEvents _ ?_
      split_ifs
      · exact .inr (stops_endLoop (holds_of_select hSelect))
      · exact .inl rfl
  | writerResult =>
    simp only [step, writerResult] at h
    split_ifs at h
    obtain ⟨_, hReturn, rfl⟩ := map_eq_some_iff.mp h
    exact .stop _ (stops_returnWith hReturn)
  | sent =>
    obtain ⟨⟨frame, _⟩, hSent, rfl⟩ := map_eq_some_iff.mp h
    obtain ⟨hSending, pipe, hPush, rfl⟩ := sent_eq hSent
    exact .sent frame pipe hSending hPush _ (.inl rfl)
  | sendFailed =>
    obtain ⟨_, hFailed, rfl⟩ := map_eq_some_iff.mp h
    exact .stop _ (stops_sendFailed hFailed)
  | joined =>
    simp only [step, joined] at h
    split_ifs at h with hJoin
    cases h
    exact .stop _ ⟨rfl, rfl, rfl, rfl, .inr ⟨rfl, by rw [hJoin.1]; rfl⟩, rfl, rfl, rfl,
      fun hHolds => by simp [Dispatch.holdsSenders] at hHolds, rfl, rfl, rfl⟩
  | writerJoined =>
    simp only [step] at h
    split_ifs at h
    obtain ⟨_, hReturn, rfl⟩ := map_eq_some_iff.mp h
    exact .stop _ (stops_returnWith hReturn)

end AgentSession

end TunnelProxy.Mux
