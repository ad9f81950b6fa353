import TunnelProxy.Mux.Tasks

/-!
# Heartbeats of the Edge session

`run_edge_session` with a clock: the heartbeat timer, and a transport that holds a bounded
number of bytes for a peer that does not read. The loop that serves the timer also sends,
and `send` waits for room in the control queue. An Agent that stops reading and goes on
sending frames of unknown streams parks the loop there, and no timeout ends the session
(`parked_past_deadline`). When the queue has room whenever the loop sends, the loop is never
parked, and an unanswered PING ends the session (`heartbeat_enforced`).

A `send` that finds room, or a closed queue, does not wait: the step that begins it also
completes it.
-/

namespace TunnelProxy.Mux

open Protocol Transition Mux.Core EdgeSession Option Dispatch

/-! ## The session and its timer -/

/-- The branches in which the loop sends control frames of its own. -/
def EdgeAction.sends : EdgeAction → Bool
  | .decode _ | .heartbeat => true
  | _ => false

/-- `send().await`, up to the point where it has to wait. -/
def EdgeSession.settle (s : EdgeSession) : EdgeSession :=
  match s.step .sent with
  | some s' => s'
  | none =>
    match s.step .sendFailed with
    | some s' => s'
    | none => s

structure TimedSession where
  session : EdgeSession
  /-- How many bytes the transport holds for the peer. -/
  window : Nat
  heartbeatInterval : Nat
  pongTimeout : Nat
  now : Nat
  /-- When `heartbeat_timer` elapses. -/
  timerAt : Nat

inductive TimedAction where
  | session (a : EdgeAction)
  | tick (elapsed : Nat)
deriving DecidableEq

namespace TimedSession

def new (limits : SessionLimits) (commandCapacity window heartbeatInterval pongTimeout : Nat) :
    TimedSession where
  session := .new limits commandCapacity
  window
  heartbeatInterval
  pongTimeout
  now := 0
  timerAt := heartbeatInterval

/-- The timer elapses, and the transport takes bytes, only at their time. -/
def admits (s : TimedSession) : EdgeAction → Bool
  | .heartbeat => s.timerAt ≤ s.now
  | .core (.writer (.wrote n)) => s.session.core.pipe.outgoing.length + n ≤ s.window
  | _ => true

/-- The timer is reset when a PING has been queued and when its PONG has come. -/
def timerAfter (s : TimedSession) (session : EdgeSession) : Nat :=
  match s.session.pendingHeartbeat, session.pendingHeartbeat with
  | none, some _ => s.now + s.pongTimeout
  | some _, none => s.now + s.heartbeatInterval
  | _, _ => s.timerAt

def advance (s : TimedSession) (session : EdgeSession) : TimedSession :=
  { s with session, timerAt := s.timerAfter session }

def step (s : TimedSession) : TimedAction → Option TimedSession
  | .session a =>
    if s.admits a then
      (s.session.step a).map fun session =>
        s.advance (if a.sends then session.settle else session)
    else none
  | .tick elapsed => some { s with now := s.now + elapsed }

/-- The control queue has room when the loop may send. -/
def roomy (s : TimedSession) : TimedAction → Prop
  | .session a =>
    a.sends → s.session.core.pipe.control.length < s.session.core.pipe.controlCapacity
  | .tick _ => True

instance (s : TimedSession) (a : TimedAction) : Decidable (s.roomy a) := by
  cases a <;> simp only [roomy] <;> infer_instance

end TimedSession

/-! ## When the loop waits -/

/-- The loop waits for room in the control queue. -/
def Dispatch.parked : Dispatch → Bool
  | .sending _ => true
  | _ => false

theorem eq_select {d : Dispatch} (hLoop : d.looping) (hParked : d.parked = false) :
    d = .select := by
  cases d with
  | select => rfl
  | sending => cases hParked
  | joining | awaitWriter => cases hLoop
  | returned => cases hLoop

theorem eq_sending {d : Dispatch} (h : d.parked) : ∃ frame, d = .sending frame := by
  cases d with
  | sending frame => exact ⟨frame, rfl⟩
  | select | joining | awaitWriter => cases h
  | returned => cases h

theorem Core.Stops.not_parked {c c' : Core} (h : Stops c c') : c'.dispatch.parked = false := by
  have hLoop := h.looping
  cases hDispatch : c'.dispatch with
  | sending =>
    rw [hDispatch] at hLoop
    cases hLoop
  | select | joining | awaitWriter => rfl
  | returned => rfl

namespace EdgeSession

variable {s s' : EdgeSession} {a : EdgeAction}

theorem decode_pipe {n : Nat} (hSide : s.core.side = .edge) (h : s.step (.decode n) = some s') :
    s'.core.pipe = s.core.pipe := by
  obtain ⟨⟨result, core⟩, hRead, rfl⟩ := map_eq_some_iff.mp h
  obtain ⟨-, -, -, -, rfl⟩ := read_eq hRead
  cases result with
  | none => rfl
  | some result =>
    cases result with
    | error => rfl
    | ok frame =>
      show (handleFrame _ frame).core.pipe = _
      rw [(handleFrame_handled frame (by exact hSide)).pipe]

theorem heartbeat_pipe (h : s.step .heartbeat = some s') : s'.core.pipe = s.core.pipe := by
  simp only [step, heartbeat] at h
  split_ifs at h
  split at h <;> cases h
  · rfl
  · unfold send
    split <;> rfl

/-- Only the branches that send begin to wait. -/
theorem not_parked_step (hParked : s.core.dispatch.parked = false)
    (hSends : a.sends = false) (h : s.step a = some s') : s'.core.dispatch.parked = false := by
  cases a with
  | decode => cases hSends
  | heartbeat => cases hSends
  | core =>
    obtain ⟨_, hStep, rfl⟩ := map_eq_some_iff.mp h
    rw [(Core.step_effect hStep).outside.dispatch]
    exact hParked
  | sent =>
    obtain ⟨⟨_, _⟩, hSent, -⟩ := map_eq_some_iff.mp h
    obtain ⟨hSending, -⟩ := sent_eq hSent
    rw [hSending] at hParked
    cases hParked
  | command =>
    obtain ⟨hSelect, hTakes⟩ := command_takes h
    cases hTakes with
    | ends => exact (stops_endLoop (holds_of_select hSelect)).not_parked
    | opens rest =>
      rw [(openCommand_eq { s with commands := rest }).2.2.1]
      exact hParked
    | drains => exact hParked
  | event =>
    obtain ⟨_, hEvent, rfl⟩ := map_eq_some_iff.mp h
    obtain ⟨hSelect, _, _, _, rfl⟩ := closedEvent_eq hEvent
    unfold drainedLoop
    split_ifs
    · exact (stops_endLoop (holds_of_select hSelect)).not_parked
    · exact hParked
  | enqueue =>
    simp only [step] at h
    split_ifs at h
    cases h
    exact hParked
  | dropCommands =>
    cases h
    exact hParked
  | decodeEof =>
    obtain ⟨result, hRead, rfl⟩ := map_eq_some_iff.mp h
    cases result with
    | ok =>
      exact (stops_endLoop (holds_of_select (readEof_select hRead))).not_parked
    | error => exact (stops_fail _ _).not_parked
  | decodeErr =>
    simp only [step, decodeErr] at h
    split_ifs at h
    cases h
    exact (stops_fail _ _).not_parked
  | sendFailed =>
    obtain ⟨_, hFailed, rfl⟩ := map_eq_some_iff.mp h
    exact (stops_sendFailed hFailed).not_parked
  | writerResult | writerJoined =>
    simp only [step] at h
    split_ifs at h
    obtain ⟨_, hReturn, rfl⟩ := map_eq_some_iff.mp h
    exact (stops_returnWith hReturn).not_parked

/-- A send that finds room does not wait. -/
theorem settle_not_parked
    (hRoom : s.core.dispatch.parked → s.core.pipe.control.length < s.core.pipe.controlCapacity) :
    s.settle.core.dispatch.parked = false := by
  unfold settle
  split
  · rename_i hSent
    obtain ⟨⟨_, _⟩, hCore, rfl⟩ := map_eq_some_iff.mp hSent
    obtain ⟨-, _, -, rfl⟩ := sent_eq hCore
    dsimp only
    split_ifs
    · split <;> rfl
    · rfl
  · rename_i hSent
    split
    · rename_i hFailed
      obtain ⟨_, hCore, rfl⟩ := map_eq_some_iff.mp hFailed
      exact (stops_sendFailed hCore).not_parked
    · rename_i hFailed
      cases hDispatch : s.core.dispatch with
      | sending =>
        rw [hDispatch] at hRoom
        cases hAlive : s.core.pipe.alive with
        | true =>
          simp [step, sent, Core.sent, hDispatch, Pipeline.pushControl, hAlive, hRoom rfl] at hSent
        | false => simp [step, sendFailed, hDispatch, hAlive] at hFailed
      | select | joining | awaitWriter => rfl
      | returned => rfl

theorem side_step (hSide : s.core.side = .edge) (h : s.step a = some s') : s'.core.side = .edge :=
  (step_effect hSide h).fixed.1.trans hSide

theorem side_settle (hSide : s.core.side = .edge) : s.settle.core.side = .edge := by
  unfold settle
  split
  · rename_i hSent
    exact side_step hSide hSent
  · split
    · rename_i hFailed
      exact side_step hSide hFailed
    · exact hSide

/-- A loop that waits is not ended by the timer, and does not take a branch that sends. -/
theorem not_timeout_of_parked (hParked : s.core.dispatch.parked) (h : s.step a = some s') :
    a.sends = false ∧ ∀ sequence,
      s'.core.dispatch ≠ .returned (some (.heartbeatTimeout sequence)) .completed := by
  obtain ⟨_, hSending⟩ := eq_sending hParked
  have hSelect : s.core.dispatch ≠ .select := by simp [hSending]
  cases a with
  | core =>
    obtain ⟨_, hStep, rfl⟩ := map_eq_some_iff.mp h
    refine ⟨rfl, fun sequence => ?_⟩
    rw [(Core.step_effect hStep).outside.dispatch, hSending]
    simp
  | enqueue =>
    simp only [step] at h
    split_ifs at h
    cases h
    simp [hSending, EdgeAction.sends]
  | dropCommands =>
    cases h
    simp [hSending, EdgeAction.sends]
  | decode =>
    obtain ⟨⟨_, _⟩, hRead, -⟩ := map_eq_some_iff.mp h
    exact absurd (read_eq hRead).1 hSelect
  | decodeEof =>
    obtain ⟨_, hRead, -⟩ := map_eq_some_iff.mp h
    exact absurd (readEof_select hRead) hSelect
  | event =>
    obtain ⟨_, hEvent, -⟩ := map_eq_some_iff.mp h
    exact absurd (closedEvent_eq hEvent).1 hSelect
  | sent =>
    obtain ⟨⟨_, _⟩, hSent, rfl⟩ := map_eq_some_iff.mp h
    obtain ⟨-, _, -, rfl⟩ := sent_eq hSent
    refine ⟨rfl, fun sequence => ?_⟩
    dsimp only
    split_ifs
    · split <;> simp [fail, Core.fail]
    · simp
  | sendFailed =>
    obtain ⟨_, hFailed, rfl⟩ := map_eq_some_iff.mp h
    simp only [sendFailed, hSending] at hFailed
    split_ifs at hFailed
    cases hFailed
    simp [Core.fail, EdgeAction.sends]
  | decodeErr | command | heartbeat | writerResult =>
    simp [step, decodeErr, command, heartbeat, hSelect] at h
  | writerJoined => simp [step, hSending] at h

end EdgeSession

/-! ## Timeouts -/

namespace TimedSession

variable {s s' : TimedSession} {a : TimedAction}

/-- The loop does not wait. -/
structure Free (s : TimedSession) : Prop where
  side : s.session.core.side = .edge
  loop : s.session.core.dispatch.parked = false

theorem free_step (h : s.Free) (hRoom : s.roomy a) (hStep : s.step a = some s') : s'.Free := by
  cases a with
  | tick =>
    cases hStep
    exact ⟨h.side, h.loop⟩
  | session a =>
    rw [step] at hStep
    split at hStep
    · obtain ⟨session, hSession, rfl⟩ := map_eq_some_iff.mp hStep
      have hSide := side_step h.side hSession
      split
      · rename_i hSends
        -- the queue is as it was when the branch was taken, so the send does not wait
        have hPipe : session.core.pipe = s.session.core.pipe := by
          cases a with
          | decode => exact decode_pipe h.side hSession
          | heartbeat => exact heartbeat_pipe hSession
          | _ => cases hSends
        have hRoomAfter : session.core.pipe.control.length < session.core.pipe.controlCapacity := by
          rw [hPipe]
          exact hRoom hSends
        exact ⟨side_settle hSide, settle_not_parked fun _ => hRoomAfter⟩
      · rename_i hSends
        exact ⟨hSide, not_parked_step h.loop (by simpa using hSends) hSession⟩
    · cases hStep

theorem not_timeout_of_parked (hParked : s.session.core.dispatch.parked)
    (hStep : s.step a = some s') (sequence : Nat) :
    s'.session.core.dispatch ≠ .returned (some (.heartbeatTimeout sequence)) .completed := by
  cases a with
  | tick =>
    cases hStep
    obtain ⟨_, hSending⟩ := eq_sending hParked
    simp [hSending]
  | session =>
    rw [step] at hStep
    split at hStep
    · obtain ⟨_, hSession, rfl⟩ := map_eq_some_iff.mp hStep
      obtain ⟨hSends, hNot⟩ := not_timeout_of_parked hParked hSession
      rw [hSends]
      exact hNot sequence
    · cases hStep

/-- In every state of the loop, it is at its `select!`; and if a PING is unanswered and its
time is over, the next step of the timer ends the session. -/
theorem heartbeat_enforced {limits : SessionLimits}
    {commandCapacity window heartbeatInterval pongTimeout : Nat} {actions : List TimedAction}
    (hRoom : Guarded step roomy
      (new limits commandCapacity window heartbeatInterval pongTimeout) actions)
    (hRun : exec step
      (new limits commandCapacity window heartbeatInterval pongTimeout) actions = some s)
    (hLoop : s.session.core.dispatch.looping) :
    s.session.core.dispatch = .select ∧
    ∀ sequence, s.session.pendingHeartbeat = some sequence → s.timerAt ≤ s.now →
      ∃ s', s.step (.session .heartbeat) = some s' ∧
        s'.session.core.dispatch = .returned (some (.heartbeatTimeout sequence)) .completed := by
  have hFree : s.Free := exec_induction_guarded
    (fun _ _ _ h hGuard hStep => free_step h hGuard hStep) ⟨rfl, rfl⟩ hRoom hRun
  have hSelect := eq_select hLoop hFree.loop
  refine ⟨hSelect, fun sequence hPending hDue => ?_⟩
  have hHeartbeat : s.session.step .heartbeat =
      some (s.session.fail (.heartbeatTimeout sequence)) := by
    simp [EdgeSession.step, heartbeat, hSelect, hPending]
  have hSettled : (s.session.fail (.heartbeatTimeout sequence)).settle =
      s.session.fail (.heartbeatTimeout sequence) := by
    simp [settle, EdgeSession.step, EdgeSession.sent, Core.sent, sendFailed,
      EdgeSession.fail, Core.fail]
  have hAdmits : s.admits .heartbeat := decide_eq_true hDue
  refine ⟨s.advance (s.session.fail (.heartbeatTimeout sequence)), ?_, rfl⟩
  rw [step, if_pos hAdmits, hHeartbeat, map_some, show EdgeAction.heartbeat.sends = true from rfl,
    if_pos rfl, hSettled]

namespace Example

/-- Every queue has one place; the transport holds one PING. -/
def initial : TimedSession :=
  .new ⟨1, 1, 1, 1, Nat.one_pos, Nat.one_pos, Nat.one_pos, Nat.one_pos⟩ 1 24 10 5

def receive : List TimedAction := [.session (.decode 16), .session (.decode 1)]

def writer (n : Nat) : List TimedAction := List.replicate n (.session (.core (.writer .turn)))

def writesControl : WriterPhase → Bool
  | .writing _ false => true
  | _ => false

/-- A PING is sent. -/
def pinged : List TimedAction :=
  [.tick 10, .session .heartbeat] ++ writer 2 ++ [.session (.core (.writer (.wrote 24)))]

/-- The Agent does not read, and sends three frames of a stream that is not open. The first
answer is with the writer, the second in the queue, the third waits; then the time of the
PONG is over. -/
def actions : List TimedAction :=
  let bytes := Sample.dataBytes 9 7
  pinged ++ [.session (.core (.arrive (bytes ++ bytes ++ bytes)))] ++ receive ++ writer 2 ++
    receive ++ receive ++ [.tick 6]

end Example

open Example in
theorem heartbeat_enforced_silent : ∃ s s',
    exec step initial (pinged ++ [.tick 5]) = some s ∧
      s.session.pendingHeartbeat = some 1 ∧ s.step (.session .heartbeat) = some s' ∧
      s'.session.core.dispatch = .returned (some (.heartbeatTimeout 1)) .completed := by
  obtain ⟨s, hExec, hLoop, hPending, hDue⟩ : ∃ s, exec step initial (pinged ++ [.tick 5]) = some s ∧
      s.session.core.dispatch.looping ∧ s.session.pendingHeartbeat = some 1 ∧
      s.timerAt ≤ s.now := by decide +kernel
  have hRoom : Guarded step roomy initial (pinged ++ [.tick 5]) := by
    decide +kernel
  obtain ⟨-, hTimeout⟩ := heartbeat_enforced hRoom hExec hLoop
  obtain ⟨s', hStep, hReturned⟩ := hTimeout 1 hPending hDue
  exact ⟨s, s', hExec, hPending, hStep, hReturned⟩

open Example in
/-- The loop is parked: the control queue is full, the writer cannot write, and no step ends
the session with a timeout although the PONG is overdue. -/
theorem parked_past_deadline : ∃ s, exec step initial actions = some s ∧
      s.session.pendingHeartbeat = some 1 ∧ s.timerAt < s.now ∧
      s.session.core.dispatch.parked ∧
      s.session.core.pipe.control.length = s.session.core.pipe.controlCapacity ∧
      s.session.core.pipe.outgoing.length = s.window ∧
      writesControl s.session.core.pipe.phase ∧
      ∀ a s', s.step a = some s' → ∀ sequence,
        s'.session.core.dispatch ≠ .returned (some (.heartbeatTimeout sequence)) .completed := by
  obtain ⟨s, hExec, hPending, hDue, hParked, hFull, hWindow, hWriting⟩ :
      ∃ s, exec step initial actions = some s ∧ s.session.pendingHeartbeat = some 1 ∧
      s.timerAt < s.now ∧ s.session.core.dispatch.parked ∧
      s.session.core.pipe.control.length = s.session.core.pipe.controlCapacity ∧
      s.session.core.pipe.outgoing.length = s.window ∧ writesControl s.session.core.pipe.phase := by
    decide +kernel
  exact ⟨s, hExec, hPending, hDue, hParked, hFull, hWindow, hWriting,
    fun a s' hStep => not_timeout_of_parked hParked hStep⟩

end TimedSession

end TunnelProxy.Mux
