import TunnelProxy.Protocol.Codec

/-!
# Stream tasks — `run_ingress_stream` and `run_local_stream`

One stream task bridges a socket and a logical stream. Both functions have the
same relay loop and differ in how the stream is opened: the Edge task sends
`OPEN_STREAM` and waits for its acknowledgement, the Agent task connects to the
local service and then acknowledges. `StreamTask` is the state of either one,
`StreamPhase` the `await` it is suspended at, and `StreamTask.step` what happens
when that `await` completes. Timeouts, socket errors and partial writes are
events, so every schedule of them is a run.

The task also records its history: the bytes it read from and wrote to its
socket, the frames it took from its inbound queue, and the frames its data queue
accepted.
-/

namespace TunnelProxy.Mux

open Protocol

/-- `MULTIPLEXED_DATA_PAYLOAD_SIZE`: the read buffer, and the DATA limit. -/
def multiplexedDataPayloadSize : Nat := 16 * 1024

inductive Side where
  | edge
  | agent
deriving DecidableEq, Repr

inductive RoutedStreamCloseReason where
  | graceful
  | peerReset (code : StreamResetCode)
  | sessionClosed
  | ioFailure
  | openTimeout
  | idleTimeout
  | protocolViolation
deriving DecidableEq, Repr

/-- The errors a session answers an open with. -/
inductive RouteError where
  | runtimeDraining
  | sessionClosing
  | capacityExceeded
  | streamIdExhausted
  | streamRejected (code : StreamResetCode)
  | openTimeout (streamId : StreamId)
deriving DecidableEq, Repr

def decodeReset (frame : Frame) : Option StreamResetCode :=
  StreamResetCode.fromBeBytes frame.payload

/-! ## State -/

/-- The `await` a stream task is suspended at. -/
inductive StreamPhase where
  /-- Edge: room on the control queue for `OPEN_STREAM`. -/
  | sendOpen
  /-- Edge: the answer to `OPEN_STREAM`, or the open timeout. -/
  | awaitOpen
  /-- Agent: the connection to the local service, or a frame. -/
  | connecting
  /-- Agent: room on the control queue for the acknowledgement. -/
  | sendAck
  /-- The `select!` of the relay loop. -/
  | relay
  /-- `write_all` with `rest` still to be written. -/
  | writing (rest : List UInt8)
  /-- `shutdown` of the socket's write half. -/
  | shuttingDown
  /-- An admission permit of the data queue. -/
  | sendData (frame : Frame)
  /-- Room on the control queue for `RESET_STREAM`; the task then closes. -/
  | sendReset (code : StreamResetCode)
  /-- Room on the event queue for `Closed`. -/
  | closing
  | ended
deriving DecidableEq

structure StreamTask where
  side : Side
  id : StreamId
  id_ne : id ≠ StreamId.control
  phase : StreamPhase
  inbound : List Frame
  /-- `ingress_ended` on the Edge, `local_ended` on the Agent. -/
  localEnded : Bool
  /-- `agent_ended` on the Edge, `peer_ended` on the Agent. -/
  peerEnded : Bool
  closeReason : RoutedStreamCloseReason
  response : Option (Except RouteError StreamId)
  completion : Option RoutedStreamCloseReason
  -- History.
  socketRead : List UInt8
  socketWritten : List UInt8
  consumed : List Frame
  /-- The frames built from what was read, in order. -/
  produced : List Frame
  /-- The ones among them that the data queue accepted. -/
  sentData : List Frame
  /-- The control queue accepted this task's `OPEN_STREAM`. -/
  acked : Bool
  /-- How many frames the session had received when the task was spawned. -/
  born : Nat

inductive TaskEvent where
  /-- The queue the task waits for accepted its item. -/
  | sent
  /-- That queue has no receiver any more. -/
  | sendFailed
  /-- `inbound.recv()` returned a frame. -/
  | recv
  /-- `inbound.recv()` returned `None`. -/
  | recvClosed
  | openTimeout
  | connected
  | connectFailed
  | connectTimeout
  | read (chunk : List UInt8)
  | readEof
  | readErr
  /-- `write` accepted the next `n` bytes. -/
  | wrote (n : Nat)
  | writeErr
  | shutdownOk
  | shutdownErr
  | idle
deriving DecidableEq

namespace StreamTask

/-- A task as it is spawned. -/
def start (side : Side) (id : StreamId) (hId : id ≠ StreamId.control) (born : Nat) :
    StreamTask where
  side := side
  id := id
  id_ne := hId
  phase := match side with
    | .edge => .sendOpen
    | .agent => .connecting
  inbound := []
  localEnded := false
  peerEnded := false
  closeReason := .graceful
  response := none
  completion := none
  socketRead := []
  socketWritten := []
  consumed := []
  produced := []
  sentData := []
  acked := false
  born := born

def running (t : StreamTask) : Bool := t.phase ≠ .ended

/-! ## Frames the task sends -/

def openFrame (t : StreamTask) : Frame :=
  .onStream t.id t.id_ne .openStream rfl [] (Nat.zero_le _)

def endFrame (t : StreamTask) : Frame :=
  .onStream t.id t.id_ne .endStream rfl [] (Nat.zero_le _)

def resetFrame (t : StreamTask) (code : StreamResetCode) : Frame :=
  .onStream t.id t.id_ne .resetStream rfl code.toBeBytes
    (code.length_toBeBytes ▸ by decide)

def dataFrame (t : StreamTask) (chunk : List UInt8)
    (hLen : chunk.length ≤ multiplexedDataPayloadSize) : Frame :=
  .onStream t.id t.id_ne .data rfl chunk
    (hLen.trans (by decide))

/-- What a task that waits for a queue wants to put on it. -/
inductive Send where
  | control (frame : Frame)
  | data (frame : Frame)
  | closed

def pendingSend (t : StreamTask) : Option Send :=
  match t.phase with
  | .sendOpen | .sendAck => some (.control t.openFrame)
  | .sendReset code => some (.control (t.resetFrame code))
  | .sendData frame => some (.data frame)
  | .closing => some .closed
  | _ => none

/-! ## Steps -/

/-- The Edge task reports its close reason before it sends `Closed`. -/
def finish (t : StreamTask) : StreamTask :=
  { t with
    phase := .closing
    completion := match t.side with
      | .edge => some t.closeReason
      | .agent => none }

/-- Leaves the task's work without a reset. The close reason is the Edge task's; an
Agent task reports none. -/
def close (t : StreamTask) (reason : RoutedStreamCloseReason) : StreamTask :=
  finish { t with closeReason := reason }

/-- Leaves the task's work with a reset. -/
def reset (t : StreamTask) (code : StreamResetCode) (reason : RoutedStreamCloseReason) :
    StreamTask :=
  { t with closeReason := reason, phase := .sendReset code }

/-- The head of the relay loop: it ends when both directions have ended. -/
def loopTop (t : StreamTask) : StreamTask :=
  if t.localEnded && t.peerEnded then t.finish else { t with phase := .relay }

/-- `end` of the task: its inbound receiver is dropped with what it holds. -/
def drop (t : StreamTask) : StreamTask := { t with phase := .ended, inbound := [] }

/-- The relay loop's arm for a frame. -/
def relayFrame (t : StreamTask) (frame : Frame) : StreamTask :=
  match frame.frameType with
  | .data =>
    if t.peerEnded then t.reset .protocolViolation .protocolViolation
    else if frame.payload.isEmpty then t.loopTop
    else { t with phase := .writing frame.payload }
  | .endStream =>
    if frame.payload.isEmpty && !t.peerEnded then
      { t with peerEnded := true, phase := .shuttingDown }
    else t.reset .protocolViolation .protocolViolation
  | .resetStream =>
    match decodeReset frame with
    | some code => t.close (.peerReset code)
    | none => t.reset .protocolViolation .protocolViolation
  | _ => t.reset .protocolViolation .protocolViolation

/-- The Edge task's first frame answers its open. -/
def openAnswer (t : StreamTask) (frame : Frame) : StreamTask :=
  if frame.frameType = .openStream ∧ frame.payload.isEmpty then
    { t with response := some (.ok t.id), phase := .relay }
  else if frame.frameType = .resetStream then
    let code := (decodeReset frame).getD .protocolViolation
    close { t with response := some (.error (.streamRejected code)) } (.peerReset code)
  else
    reset { t with response := some (.error (.streamRejected .protocolViolation)) }
      .protocolViolation .protocolViolation

/-- A frame before the Agent task is connected ends the stream. -/
def connectingFrame (t : StreamTask) (frame : Frame) : StreamTask :=
  if frame.frameType ≠ .resetStream ∨ decodeReset frame = none then
    t.reset .protocolViolation .protocolViolation
  else t.close .sessionClosed

def onFrame (t : StreamTask) (frame : Frame) : Option StreamTask :=
  match t.phase with
  | .awaitOpen => some (t.openAnswer frame)
  | .connecting => some (t.connectingFrame frame)
  | .relay => some (t.relayFrame frame)
  | _ => none

/-- `inbound.recv()` returned `None`: the dispatch loop dropped the sender. -/
def onClosed (t : StreamTask) : Option StreamTask :=
  match t.phase with
  | .awaitOpen =>
    some (close { t with response := some (.error .sessionClosing) } .sessionClosed)
  | .connecting | .relay => some (t.close .sessionClosed)
  | _ => none

def onSent (t : StreamTask) : Option StreamTask :=
  match t.phase with
  | .sendOpen => some { t with acked := true, phase := .awaitOpen }
  | .sendAck => some { t with acked := true, phase := .relay }
  | .sendData frame => some (loopTop { t with sentData := t.sentData ++ [frame] })
  | .sendReset _ => some t.finish
  | .closing => some t.drop
  | _ => none

def onSendFailed (t : StreamTask) : Option StreamTask :=
  match t.phase with
  | .sendOpen =>
    some (close { t with response := some (.error .sessionClosing) } .sessionClosed)
  | .sendAck | .sendData _ => some (t.close .sessionClosed)
  | .sendReset _ => some t.finish
  | .closing => some t.drop
  | _ => none

/-- A read of at most one buffer; the branch is off once the socket has ended. -/
def onRead (t : StreamTask) (chunk : List UInt8) : Option StreamTask :=
  if hLen : chunk.length ≤ multiplexedDataPayloadSize then
    if t.phase = .relay ∧ t.localEnded = false ∧ chunk ≠ [] then
      some { t with
        socketRead := t.socketRead ++ chunk
        produced := t.produced ++ [t.dataFrame chunk hLen]
        phase := .sendData (t.dataFrame chunk hLen) }
    else none
  else none

def onReadEof (t : StreamTask) : Option StreamTask :=
  if t.phase = .relay ∧ t.localEnded = false then
    some { t with
      localEnded := true
      produced := t.produced ++ [t.endFrame]
      phase := .sendData t.endFrame }
  else none

/-- `write_all` goes on until its buffer is empty. -/
def onWrote (t : StreamTask) (n : Nat) : Option StreamTask :=
  match t.phase with
  | .writing rest =>
    if 0 < n ∧ n ≤ rest.length then
      let t := { t with socketWritten := t.socketWritten ++ rest.take n }
      some (if n = rest.length then t.loopTop else { t with phase := .writing (rest.drop n) })
    else none
  | _ => none

def step (t : StreamTask) : TaskEvent → Option StreamTask
  | .sent => t.onSent
  | .sendFailed => t.onSendFailed
  | .recv =>
    match t.inbound with
    | frame :: rest =>
      onFrame { t with inbound := rest, consumed := t.consumed ++ [frame] } frame
    | [] => none
  | .recvClosed => if t.inbound = [] then t.onClosed else none
  | .openTimeout =>
    if t.phase = .awaitOpen then
      some (reset { t with response := some (.error (.openTimeout t.id)) }
        .openTimeout .openTimeout)
    else none
  | .connected => if t.phase = .connecting then some { t with phase := .sendAck } else none
  | .connectFailed =>
    if t.phase = .connecting then some (t.reset .localConnectFailed .ioFailure) else none
  | .connectTimeout =>
    if t.phase = .connecting then some (t.reset .localConnectTimeout .openTimeout) else none
  | .read chunk => t.onRead chunk
  | .readEof => t.onReadEof
  | .readErr =>
    if t.phase = .relay ∧ t.localEnded = false then some (t.reset .ioFailure .ioFailure)
    else none
  | .wrote n => t.onWrote n
  | .writeErr =>
    match t.phase with
    | .writing _ => some (t.reset .ioFailure .ioFailure)
    | _ => none
  | .shutdownOk => if t.phase = .shuttingDown then some t.loopTop else none
  | .shutdownErr =>
    if t.phase = .shuttingDown then some (t.reset .ioFailure .ioFailure) else none
  | .idle => if t.phase = .relay then some (t.reset .idleTimeout .idleTimeout) else none

end StreamTask

end TunnelProxy.Mux
