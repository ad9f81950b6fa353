import TunnelProxy.Mux.Core
import TunnelProxy.Lib.Transition

/-!
# The two dispatch loops and their composition

`EdgeSession.step` is `run_edge_session`, `AgentSession.step` is
`run_multiplexed_inner`; each takes the actions of the common core and its own.
The Edge's `select!` is unbiased, so any ready branch may be taken. The Agent's is
biased: a branch is taken only when the ones before it are not ready.

A session alone is closed by any peer: the bytes that arrive are arbitrary.
`System` composes one Edge and one Agent session over two byte transports that
deliver what was sent, in order; either transport may end at any moment.
-/

namespace TunnelProxy.Mux

open Protocol BigEndian

/-! ## Heartbeats -/

/-- `u64::MAX`: a sequence does not wrap. -/
def maxHeartbeatSequence : Nat := 2 ^ 64 - 1

/-- Exactly eight bytes that are not all zero. -/
def decodeHeartbeat (frame : Frame) : Option Nat :=
  if frame.payload.length ≠ 8 then none
  else if readBE frame.payload = 0 then none
  else some (readBE frame.payload)

def checkedNext (sequence : Nat) : Option Nat :=
  if sequence < maxHeartbeatSequence then some (sequence + 1) else none

/-! ## Edge -/

inductive SessionCommand where
  | open
  | beginDrain
  | revokeAuthorization
deriving DecidableEq, Repr

structure EdgeSession where
  core : Core
  commandCapacity : Nat
  commands : List SessionCommand
  commandsOpen : Bool
  nextStreamId : UInt32
  heartbeatSequence : Nat
  pendingHeartbeat : Option Nat
  draining : Bool
  /-- History: the answers to opens that spawned no task. -/
  refused : List RouteError

inductive EdgeAction where
  | core (a : Core.CoreAction)
  /-- The router or the runtime enqueues a command, or drops the queue. -/
  | enqueue (command : SessionCommand)
  | dropCommands
  -- Branches of the `select!`, and what follows them.
  | decode (n : Nat)
  | decodeEof
  | decodeErr
  | command
  | event
  | heartbeat
  | writerResult
  | sent
  | sendFailed
  | writerJoined
deriving DecidableEq

namespace EdgeSession

def new (limits : SessionLimits) (commandCapacity : Nat) : EdgeSession where
  core := .new .edge limits
  commandCapacity := commandCapacity
  commands := []
  commandsOpen := true
  nextStreamId := 1
  heartbeatSequence := 1
  pendingHeartbeat := none
  draining := false
  refused := []

def fail (s : EdgeSession) (error : SessionError) : EdgeSession :=
  { s with core := s.core.fail error }

def endLoop (s : EdgeSession) : EdgeSession := { s with core := s.core.endLoop }

def pong (s : EdgeSession) (frame : Frame) : EdgeSession :=
  match decodeHeartbeat frame with
  | none => s.fail (.invalidHeartbeatPayload .pong)
  | some got =>
    match s.pendingHeartbeat with
    | none => s.fail (.protocolViolation "unsolicited PONG")
    | some expected =>
      if got ≠ expected then s.fail (.heartbeatSequenceMismatch expected got)
      else { s with pendingHeartbeat := none }

def handleFrame (s : EdgeSession) (frame : Frame) : EdgeSession :=
  match frame.frameType with
  | .pong => s.pong frame
  | .openStream | .data | .endStream | .resetStream => { s with core := s.core.forward frame }
  | .error => s.fail (.protocolViolation "Agent sent ERROR")
  | _ => s.fail (.protocolViolation "unexpected established-session frame")

def decode (s : EdgeSession) (n : Nat) : Option EdgeSession :=
  (s.core.read n).map fun (result, core) =>
    let s := { s with core }
    match result with
    | none => s
    | some (.error error) => s.fail (.protocolDecode error)
    | some (.ok frame) => s.handleFrame frame

def decodeEof (s : EdgeSession) : Option EdgeSession :=
  s.core.readEof.map fun
    | .ok () => s.endLoop
    | .error error => s.fail (.protocolDecode error)

def decodeErr (s : EdgeSession) : Option EdgeSession :=
  if s.core.dispatch = .select then some (s.fail (.protocolDecode .io)) else none

def openCommand (s : EdgeSession) : EdgeSession :=
  if s.draining then { s with refused := s.refused ++ [.runtimeDraining] }
  else if s.core.limits.maxStreams ≤ s.core.streams.size then
    { s with refused := s.refused ++ [.capacityExceeded] }
  else match StreamId.new s.nextStreamId with
    | none => { s with refused := s.refused ++ [.streamIdExhausted] }
    | some streamId =>
      { s with
        nextStreamId := Core.advanceStreamId s.nextStreamId
        core := s.core.spawn streamId }

def runCommand (s : EdgeSession) : SessionCommand → EdgeSession
  | .open => s.openCommand
  | .beginDrain =>
    let s := { s with draining := true }
    if s.core.streams.isEmpty then s.endLoop else s
  | .revokeAuthorization => s.endLoop

/-- A closed and empty command queue ends the loop. -/
def command (s : EdgeSession) : Option EdgeSession :=
  if s.core.dispatch = .select then
    match s.commands with
    | command :: rest => some ({ s with commands := rest }.runCommand command)
    | [] => if s.commandsOpen then none else some s.endLoop
  else none

def drainedLoop (s : EdgeSession) : EdgeSession :=
  if s.draining && s.core.streams.isEmpty then s.endLoop else s

def heartbeat (s : EdgeSession) : Option EdgeSession :=
  if s.core.dispatch = .select then
    match s.pendingHeartbeat with
    | some sequence => some (s.fail (.heartbeatTimeout sequence))
    | none => some { s with core := s.core.send (Frame.control .ping (be 8 s.heartbeatSequence)) }
  else none

/-- After a PING was accepted its sequence is pending and the next one is due. -/
def sent (s : EdgeSession) : Option EdgeSession :=
  s.core.sent.map fun (frame, core) =>
    let s := { s with core }
    if frame.frameType = .ping then
      let s := { s with pendingHeartbeat := some s.heartbeatSequence }
      match checkedNext s.heartbeatSequence with
      | some next => { s with heartbeatSequence := next }
      | none => s.fail .heartbeatSequenceExhausted
    else s

def step (s : EdgeSession) : EdgeAction → Option EdgeSession
  | .core a => (s.core.step a).map fun core => { s with core }
  | .enqueue command =>
    if s.commandsOpen ∧ s.commands.length < s.commandCapacity ∧
        s.core.dispatch.isReturned = false then
      some { s with commands := s.commands ++ [command] }
    else none
  | .dropCommands => some { s with commandsOpen := false }
  | .decode n => s.decode n
  | .decodeEof => s.decodeEof
  | .decodeErr => s.decodeErr
  | .command => s.command
  | .event => s.core.closedEvent.map fun core => { s with core }.drainedLoop
  | .heartbeat => s.heartbeat
  | .writerResult =>
    if s.core.dispatch = .select then
      (s.core.returnWith .completed).map fun core => { s with core }
    else none
  | .sent => s.sent
  | .sendFailed => s.core.sendFailed.map fun core => { s with core }
  | .writerJoined =>
    if s.core.dispatch = .awaitWriter then
      (s.core.returnWith .completed).map fun core => { s with core }
    else none

end EdgeSession

/-! ## Agent -/

structure AgentSession where
  core : Core
  /-- The session was given a shutdown signal, and the signal has been raised. -/
  hasShutdown : Bool
  signalled : Bool
  draining : Bool
  closeReason : SessionCloseReason

inductive AgentAction where
  | core (a : Core.CoreAction)
  | raiseShutdown
  -- Branches of the `select!`, in its order, and what follows them.
  | shutdown
  | drainDeadline
  | decode (n : Nat)
  | decodeEof
  | decodeErr
  | event
  | writerResult
  | sent
  | sendFailed
  | joined
  | writerJoined
deriving DecidableEq

namespace AgentSession

def new (limits : SessionLimits) (hasShutdown : Bool) : AgentSession where
  core := .new .agent limits
  hasShutdown := hasShutdown
  signalled := false
  draining := false
  closeReason := .peerClosed

def fail (s : AgentSession) (error : SessionError) : AgentSession :=
  { s with core := s.core.fail error }

def endLoop (s : AgentSession) : AgentSession := { s with core := s.core.endLoop }

/-- The first branch of the biased `select!`. -/
def shutdownReady (s : AgentSession) : Bool := s.hasShutdown && s.signalled && !s.draining

/-- The decode branch can make progress. -/
def decodeReady (s : AgentSession) : Bool := !s.core.incoming.isEmpty || s.core.eof

def shutdown (s : AgentSession) : Option AgentSession :=
  if s.core.dispatch = .select ∧ s.shutdownReady then
    let s := { s with draining := true, closeReason := .localShutdown }
    some (if s.core.streams.isEmpty then s.endLoop else s)
  else none

/-- A drain that runs out of time cancels the stream tasks. -/
def drainDeadline (s : AgentSession) : Option AgentSession :=
  if s.core.dispatch = .select ∧ s.draining then
    let s := { s with closeReason := .localShutdown }.endLoop
    some { s with core := { s.core with aborting := true } }
  else none

def openFrame (s : AgentSession) (frame : Frame) : AgentSession :=
  if s.draining then { s with core := s.core.sendReset frame.streamId .sessionClosing }
  else if !frame.payload.isEmpty || s.core.streams.contains frame.streamId then
    { s with core := s.core.sendReset frame.streamId .protocolViolation }
  else if s.core.limits.maxStreams ≤ s.core.streams.size then
    { s with core := s.core.sendReset frame.streamId .capacityExceeded }
  else { s with core := s.core.spawn frame.streamId }

def handleFrame (s : AgentSession) (frame : Frame) : AgentSession :=
  match frame.frameType with
  | .ping =>
    match decodeHeartbeat frame with
    | none => s.fail (.invalidHeartbeatPayload .ping)
    | some sequence => { s with core := s.core.send (Frame.control .pong (be 8 sequence)) }
  | .openStream => s.openFrame frame
  | .data | .endStream | .resetStream => { s with core := s.core.forward frame }
  | .error => s.fail (.heartbeatRejected frame.payload)
  | frameType => s.fail (.unexpectedFrame frameType)

def decode (s : AgentSession) (n : Nat) : Option AgentSession :=
  if s.shutdownReady then none
  else (s.core.read n).map fun (result, core) =>
    let s := { s with core }
    match result with
    | none => s
    | some (.error error) => s.fail (.protocolDecode error)
    | some (.ok frame) => s.handleFrame frame

def decodeEof (s : AgentSession) : Option AgentSession :=
  if s.shutdownReady then none
  else s.core.readEof.map fun
    | .ok () => s.endLoop
    | .error error => s.fail (.protocolDecode error)

def decodeErr (s : AgentSession) : Option AgentSession :=
  if s.core.dispatch = .select ∧ s.shutdownReady = false then
    some (s.fail (.protocolDecode .io))
  else none

def event (s : AgentSession) : Option AgentSession :=
  if s.shutdownReady || s.decodeReady then none
  else s.core.closedEvent.map fun core =>
    let s := { s with core }
    if s.draining && s.core.streams.isEmpty then s.endLoop else s

/-- A writer that ends by itself ends the session; a normal end of it is reported
as a local shutdown. -/
def writerResult (s : AgentSession) : Option AgentSession :=
  if s.core.dispatch = .select ∧ s.shutdownReady = false ∧ s.decodeReady = false ∧
      s.core.events = [] then
    (s.core.returnWith .localShutdown).map fun core => { s with core }
  else none

/-- All stream tasks are joined; the loop's own senders are dropped. -/
def joined (s : AgentSession) : Option AgentSession :=
  if s.core.dispatch = .joining ∧ s.core.tasks.all (!·.running) then
    some { s with core := { s.core with dispatch := .awaitWriter } }
  else none

def step (s : AgentSession) : AgentAction → Option AgentSession
  | .core a => (s.core.step a).map fun core => { s with core }
  | .raiseShutdown => some { s with signalled := true }
  | .shutdown => s.shutdown
  | .drainDeadline => s.drainDeadline
  | .decode n => s.decode n
  | .decodeEof => s.decodeEof
  | .decodeErr => s.decodeErr
  | .event => s.event
  | .writerResult => s.writerResult
  | .sent => s.core.sent.map fun (_, core) => { s with core }
  | .sendFailed => s.core.sendFailed.map fun core => { s with core }
  | .joined => s.joined
  | .writerJoined =>
    if s.core.dispatch = .awaitWriter then
      (s.core.returnWith s.closeReason).map fun core => { s with core }
    else none

end AgentSession

/-! ## Composition -/

/-- One Edge session and one Agent session on one connection. -/
structure System where
  edge : EdgeSession
  agent : AgentSession

inductive SystemAction where
  | edge (a : EdgeAction)
  | agent (a : AgentAction)
  /-- The transport moves `n` bytes from one side to the other. -/
  | toAgent (n : Nat)
  | toEdge (n : Nat)
deriving DecidableEq

namespace System

def new (edgeLimits agentLimits : SessionLimits) (commandCapacity : Nat) (hasShutdown : Bool) :
    System where
  edge := .new edgeLimits commandCapacity
  agent := .new agentLimits hasShutdown

/-- What the transport does is not done by a side on its own. -/
def isTransfer : Core.CoreAction → Bool
  | .arrive _ | .depart _ => true
  | _ => false

def edgeAlone : EdgeAction → Bool
  | .core a => !isTransfer a
  | _ => true

def agentAlone : AgentAction → Bool
  | .core a => !isTransfer a
  | _ => true

def step (s : System) : SystemAction → Option System
  | .edge a => if edgeAlone a then (s.edge.step a).map fun edge => { s with edge } else none
  | .agent a => if agentAlone a then (s.agent.step a).map fun agent => { s with agent } else none
  | .toAgent n => do
    let bytes := s.edge.core.pipe.outgoing.take n
    let edge ← s.edge.step (.core (.depart n))
    let agent ← s.agent.step (.core (.arrive bytes))
    some { edge, agent }
  | .toEdge n => do
    let bytes := s.agent.core.pipe.outgoing.take n
    let agent ← s.agent.step (.core (.depart n))
    let edge ← s.edge.step (.core (.arrive bytes))
    some { edge, agent }

end System

end TunnelProxy.Mux
