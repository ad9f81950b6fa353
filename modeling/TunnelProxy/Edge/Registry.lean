import TunnelProxy.Lib.Transition
import TunnelProxy.Edge.Registration

/-!
# Session registry of the Edge

The state that the accepted connections, the snapshot reconciliation of the runtime loop
and the router share: the session and tunnel maps, the two watch lists made from them,
the tunnel claims, and the authorization gate. Every task is cut at its lock
acquisitions, its channel operations and every write to the shared state, and `step`
lets any task that can go on do so.

What is done under the gate is a `Section`: the holder's next operation with its local
variables. A section is entered only when the gate is free; the operations of one task
between two of them (handshake, claim, running session) are steps of their own.

Two fields record what the source does not keep: the snapshots published so far, and the
log of registrations, removals and enqueued opens.
-/

namespace TunnelProxy.Edge

open Std Common Control

/-! ## Sessions, connections and the gate -/

/-- A nonzero 64-bit number in the source. -/
abbrev TransportSessionId := Nat

/-- `TransportSessionIdAllocator::next_id`: the counter holds the last id given out. -/
def nextId (counter : Nat) : Option TransportSessionId :=
  if counter + 1 < 2 ^ 64 then some (counter + 1) else none

/-- The commands of a session, without the reply channels of `Open`. -/
inductive SessionCommand where
  | open
  | beginDrain
  | revokeAuthorization
deriving DecidableEq, Repr

/-- The bounded command channel of a session; `closed` when its receiver is gone. -/
structure CommandChannel where
  queue : List SessionCommand
  closed : Bool
deriving DecidableEq

inductive TrySendError where
  | full
  | closed
deriving DecidableEq

def CommandChannel.trySend (channel : CommandChannel) (capacity : Nat)
    (command : SessionCommand) : Except TrySendError CommandChannel :=
  if channel.closed then .error .closed
  else if capacity ≤ channel.queue.length then .error .full
  else .ok { channel with queue := channel.queue ++ [command] }

/-- `LiveSession`; its sender is named by the session the channel was made for. -/
structure LiveSession where
  commands : TransportSessionId
  authorization : AuthorizedRegistration
deriving DecidableEq

/-- What a completed handshake returns. -/
structure AgentSession where
  sessionId : TransportSessionId
  tunnelId : TunnelId
  authorization : AuthorizedRegistration
deriving DecidableEq

/-- Where `run_accepted_session` is. -/
inductive Phase where
  /-- Waiting for HELLO and REGISTER. -/
  | handshake (peerCertificate : Option CertificateFingerprint)
  | authorized (tunnelId : TunnelId) (authorization : AuthorizedRegistration)
  | claimed (tunnelId : TunnelId) (authorization : AuthorizedRegistration)
  /-- Writing REGISTERED. -/
  | registering (session : AgentSession)
  /-- From the first `lock().await`, not in the session map yet. -/
  | publishing (session : AgentSession)
  /-- In the session map, with the gate still held. -/
  | inserted (session : AgentSession)
  | running (session : AgentSession)
  /-- From the second `lock().await`. -/
  | removing (session : AgentSession)
  /-- Out of the session map, with the gate still held. -/
  | withdrawn (tunnelId : TunnelId)
  /-- The end of the function, where the tunnel claim is dropped. -/
  | closing (tunnelId : TunnelId)
  | finished
deriving DecidableEq

inductive AuthorizationSourceStatus where
  | static
  | live
  | stale
deriving DecidableEq, Repr

structure EdgeAuthorizationStatus where
  version : Option SnapshotVersion
  source : AuthorizationSourceStatus
  revokedSessions : Nat
deriving DecidableEq

/-- What `next_snapshot_update` returns. -/
structure SnapshotUpdate where
  snapshot : VersionedAuthorizationSnapshot
  source : AuthorizationSourceStatus

/-- The next operation of the holder of the authorization gate, with its local
variables. -/
inductive Section where
  -- publication of connection `k`
  | reauthorize (k : Nat) (session : AgentSession)
  | insertSession (k : Nat) (session : AgentSession)
  | sendInserted (k : Nat) (session : AgentSession) (snapshot : List TransportSessionId)
  | insertTunnel (k : Nat) (session : AgentSession)
  | sendBound (k : Nat) (session : AgentSession)
      (snapshot : List (TunnelId × TransportSessionId))
  -- removal of connection `k`
  | removeTunnel (k : Nat) (session : AgentSession)
  | sendUnbound (k : Nat) (session : AgentSession)
      (snapshot : List (TunnelId × TransportSessionId))
  | removeSession (k : Nat) (session : AgentSession)
  | sendRemoved (k : Nat) (session : AgentSession) (snapshot : List TransportSessionId)
  -- reconciliation
  | collectRevoked (update : SnapshotUpdate)
  | retainTunnels (update : SnapshotUpdate) (revoked : List TransportSessionId)
  | sendRetained (update : SnapshotUpdate) (revoked : List TransportSessionId)
      (snapshot : List (TunnelId × TransportSessionId))
  | removeRevoked (update : SnapshotUpdate) (revoked : List TransportSessionId)
  | sendKept (update : SnapshotUpdate) (revoked senders : List TransportSessionId)
      (snapshot : List TransportSessionId)
  | setStatus (update : SnapshotUpdate) (revoked senders : List TransportSessionId)
  -- a call of the router
  | resolve (tunnelId : TunnelId)
  | enqueue (sessionId : TransportSessionId)

/-- Where the runtime loop is. It accepts connections only while it selects: an update
is read, reconciled and announced to the revoked sessions inside one branch. -/
inductive RuntimePhase where
  | selecting
  | changed
  | reconciling (update : SnapshotUpdate)
  | notifying (senders : List TransportSessionId)

inductive RegistryEvent where
  | registered (sessionId : TransportSessionId)
  | removed (sessionId : TransportSessionId)
  | opened (sessionId : TransportSessionId)
deriving DecidableEq, Repr

inductive SnapshotSourceHealth where
  | live
  | stale
deriving DecidableEq, Repr

structure RegistryConfig where
  maxAgentSessions : Nat
  sessionCommandCapacity : Nat

structure Registry where
  config : RegistryConfig
  mode : EdgeRegistrationMode
  health : SnapshotSourceHealth
  /-- The subscription of the runtime has an update it has not seen. -/
  unseen : Bool
  /-- `snapshot_updates` of the runtime is `Some`. -/
  subscribed : Bool
  runtime : RuntimePhase
  connections : List Phase
  claims : List TunnelId
  counter : Nat
  sessions : ExtTreeMap TransportSessionId LiveSession
  tunnels : ExtTreeMap TunnelId TransportSessionId
  channels : ExtTreeMap TransportSessionId CommandChannel
  gate : Option Section
  sessionUpdates : List TransportSessionId
  tunnelUpdates : List (TunnelId × TransportSessionId)
  authorizationUpdates : EdgeAuthorizationStatus
  acceptingStreams : Bool
  /-- The debug assertion on `tunnels.insert` failed. -/
  replacedTunnel : Bool
  published : List VersionedAuthorizationSnapshot
  log : List RegistryEvent

/-- `sorted_session_ids` -/
def sortedSessionIds (sessions : ExtTreeMap TransportSessionId LiveSession) :
    List TransportSessionId :=
  sessions.keys

/-- `sorted_tunnel_bindings` -/
def sortedTunnelBindings (tunnels : ExtTreeMap TunnelId TransportSessionId) :
    List (TunnelId × TransportSessionId) :=
  tunnels.toList

namespace Registry

/-- `MultiplexedEdgeRuntime::bind` and the subscription that its run takes; publications
before that may have left an update unseen. -/
def bind (config : RegistryConfig) (mode : EdgeRegistrationMode)
    (health : SnapshotSourceHealth) (unseen : Bool) : Registry where
  config
  mode
  health
  unseen
  subscribed := mode.hasLiveUpdates
  runtime := .selecting
  connections := []
  claims := []
  counter := 0
  sessions := ∅
  tunnels := ∅
  channels := ∅
  gate := none
  sessionUpdates := []
  tunnelUpdates := []
  authorizationUpdates :=
    { version := mode.snapshotVersion
      source := match mode.hasLiveUpdates, health with
        | true, .live => .live
        | true, .stale => .stale
        | false, _ => .static
      revokedSessions := 0 }
  acceptingStreams := true
  replacedTunnel := false
  published := mode.current.toList
  log := []

def setPhase (r : Registry) (k : Nat) (phase : Phase) : Registry :=
  { r with connections := r.connections.set k phase }

/-! ## Connections outside the gate -/

/-- `spawn_accepted_session`: a connection without a permit is dropped. -/
def accept (r : Registry) (peerCertificate : Option CertificateFingerprint) : Option Registry :=
  match r.runtime with
  | .selecting =>
    if (r.connections.filter (· ≠ .finished)).length < r.config.maxAgentSessions then
      some { r with connections := r.connections ++ [.handshake peerCertificate] }
    else some r
  | _ => none

/-- A REGISTER frame arrives and the policy is asked. -/
def register (r : Registry) (k : Nat) (request : RegistrationRequest) : Option Registry :=
  match r.connections[k]? with
  | some (.handshake peerCertificate) =>
    match r.mode.authorize peerCertificate request with
    | .error _ => some (r.setPhase k .finished)
    | .ok authorization => some (r.setPhase k (.authorized request.tunnelId authorization))
  | _ => none

/-- `TunnelRegistrationClaims::claim` -/
def claim (r : Registry) (k : Nat) : Option Registry :=
  match r.connections[k]? with
  | some (.authorized tunnelId authorization) =>
    if tunnelId ∈ r.claims then some (r.setPhase k .finished)
    else some { r.setPhase k (.claimed tunnelId authorization) with
      claims := tunnelId :: r.claims }
  | _ => none

def allocate (r : Registry) (k : Nat) : Option Registry :=
  match r.connections[k]? with
  | some (.claimed tunnelId authorization) =>
    match nextId r.counter with
    | none => some (r.setPhase k (.closing tunnelId))
    | some id => some { r.setPhase k (.registering ⟨id, tunnelId, authorization⟩) with
        counter := id }
  | _ => none

/-- REGISTERED is written; the command channel is made. -/
def registered (r : Registry) (k : Nat) : Option Registry :=
  match r.connections[k]? with
  | some (.registering session) =>
    some { r.setPhase k (.publishing session) with
      channels := r.channels.insert session.sessionId ⟨[], false⟩ }
  | _ => none

/-- The peer fails the handshake, or its time is up while a frame is read or written. -/
def handshakeFails (r : Registry) (k : Nat) : Option Registry :=
  match r.connections[k]? with
  | some (.handshake _) => some (r.setPhase k .finished)
  | some (.registering session) => some (r.setPhase k (.closing session.tunnelId))
  | _ => none

def lock (r : Registry) (k : Nat) : Option Registry :=
  match r.gate, r.connections[k]? with
  | none, some (.publishing session) => some { r with gate := some (.reauthorize k session) }
  | none, some (.removing session) => some { r with gate := some (.removeTunnel k session) }
  | _, _ => none

/-- `run_edge_session` returns and drops the receiver of the command channel. -/
def endSession (r : Registry) (k : Nat) (session : AgentSession) : Registry :=
  { r.setPhase k (.removing session) with
    channels := r.channels.insert session.sessionId ⟨[], true⟩ }

def sessionEnds (r : Registry) (k : Nat) : Option Registry :=
  match r.connections[k]? with
  | some (.running session) => some (r.endSession k session)
  | _ => none

/-- A running session takes a command; a revocation ends it. -/
def receive (r : Registry) (k : Nat) : Option Registry :=
  match r.connections[k]? with
  | some (.running session) =>
    match r.channels[session.sessionId]? with
    | some ⟨.revokeAuthorization :: _, _⟩ => some (r.endSession k session)
    | some ⟨_ :: queue, closed⟩ =>
      some { r with channels := r.channels.insert session.sessionId ⟨queue, closed⟩ }
    | _ => none
  | _ => none

/-- `run_accepted_session` ends and its `AgentSession` drops the claim. -/
def release (r : Registry) (k : Nat) : Option Registry :=
  match r.connections[k]? with
  | some (.closing tunnelId) =>
    some { r.setPhase k .finished with claims := r.claims.filter (· ≠ tunnelId) }
  | _ => none

/-! ## Snapshot source, runtime loop and router -/

/-- `AuthorizationSnapshotPublisher::publish`; a refused candidate changes nothing. -/
def publishSnapshot (r : Registry) (candidate : VersionedAuthorizationSnapshot) : Option Registry :=
  match r.mode with
  | .loopbackDevelopment _ => none
  | .mutualTls current liveUpdates =>
    match publish current candidate with
    | .ok (.applied _ _, next) =>
      some { r with
        mode := .mutualTls next liveUpdates
        unseen := true
        published := r.published ++ [next] }
    | _ => some r

/-- `set_source_health` wakes the subscribers as well. -/
def setSourceHealth (r : Registry) (health : SnapshotSourceHealth) : Registry :=
  { r with health, unseen := true }

/-- `changed` resolves in the select of the runtime loop. -/
def snapshotChanged (r : Registry) : Option Registry :=
  match r.runtime with
  | .selecting =>
    if r.subscribed && r.unseen then some { r with unseen := false, runtime := .changed }
    else none
  | _ => none

/-- The rest of `next_snapshot_update`: the value of the channel by now. -/
def readSnapshot (r : Registry) : Option Registry :=
  match r.runtime, r.mode.current with
  | .changed, some current =>
    let source := match r.health with
      | .live => .live
      | .stale => .stale
    some { r with runtime := .reconciling ⟨current, source⟩ }
  | _, _ => none

/-- `changed` fails because every publisher is gone: `mark_snapshot_source_stale`. -/
def sourceClosed (r : Registry) : Option Registry :=
  match r.runtime with
  | .selecting =>
    if r.subscribed then
      some { r with
        subscribed := false
        authorizationUpdates := { r.authorizationUpdates with source := .stale } }
    else none
  | _ => none

def lockReconcile (r : Registry) : Option Registry :=
  match r.gate, r.runtime with
  | none, .reconciling update => some { r with gate := some (.collectRevoked update) }
  | _, _ => none

/-- The loop over the senders after the gate is dropped: `send` waits for room and fails
if the session is gone. -/
def notifyRevoked (r : Registry) : Option Registry :=
  match r.runtime with
  | .notifying [] => some { r with runtime := .selecting }
  | .notifying (sender :: rest) =>
    match r.channels[sender]? with
    | none => some { r with runtime := .notifying rest }
    | some channel =>
      match channel.trySend r.config.sessionCommandCapacity .revokeAuthorization with
      | .error .full => none
      | .error .closed => some { r with runtime := .notifying rest }
      | .ok channel =>
        some { r with
          runtime := .notifying rest
          channels := r.channels.insert sender channel }
  | _ => none

inductive RouteError where
  | runtimeDraining
  | sessionNotFound (sessionId : TransportSessionId)
  | tunnelNotConnected (tunnelId : TunnelId)
  | sessionBusy (sessionId : TransportSessionId)
  | sessionClosing (sessionId : TransportSessionId)
deriving DecidableEq

/-- `resolve_tunnel` as `open_tunnel_io_tracked` uses it. -/
def resolveTunnel (r : Registry) (tunnelId : TunnelId) : Except RouteError TransportSessionId :=
  match r.tunnels[tunnelId]? with
  | none => .error (.tunnelNotConnected tunnelId)
  | some sessionId => .ok sessionId

def enqueueIo (r : Registry) (sessionId : TransportSessionId) : Except RouteError Registry :=
  if !r.acceptingStreams then .error .runtimeDraining
  else match r.sessions[sessionId]? with
    | none => .error (.sessionNotFound sessionId)
    | some session =>
      match r.channels[session.commands]? with
      | none => .error (.sessionClosing sessionId)
      | some channel =>
        match channel.trySend r.config.sessionCommandCapacity .open with
        | .error .full => .error (.sessionBusy sessionId)
        | .error .closed => .error (.sessionClosing sessionId)
        | .ok channel =>
          .ok { r with
            channels := r.channels.insert session.commands channel
            log := r.log ++ [.opened sessionId] }

/-- A router call waits for the gate with nothing but its argument. -/
def lockRouter (r : Registry) (call : Section) : Option Registry :=
  match r.gate with
  | none => some { r with gate := some call }
  | some _ => none

/-! ## Under the gate -/

/-- Drop the gate at the end of a section of connection `k`. -/
def leave (r : Registry) (k : Nat) (phase : Phase) : Registry :=
  { r.setPhase k phase with gate := none }

/-- The ids `reconcile_authorization_snapshot` collects. -/
def revokedIds (sessions : ExtTreeMap TransportSessionId LiveSession)
    (snapshot : VersionedAuthorizationSnapshot) : List TransportSessionId :=
  (sessions.toList.filter fun session =>
    !principalIsAuthorized snapshot session.2.authorization).map (·.1)

def runSection (r : Registry) : Section → Registry
  -- `run_accepted_session`, publication
  | .reauthorize k session =>
    if r.mode.reauthorize session.authorization then
      { r with gate := some (.insertSession k session) }
    else r.leave k (.closing session.tunnelId)
  | .insertSession k session =>
    let sessions := r.sessions.insert session.sessionId
      ⟨session.sessionId, session.authorization⟩
    { r.setPhase k (.inserted session) with
      sessions
      gate := some (.sendInserted k session (sortedSessionIds sessions))
      log := r.log ++ [.registered session.sessionId] }
  | .sendInserted k session snapshot =>
    { r with sessionUpdates := snapshot, gate := some (.insertTunnel k session) }
  | .insertTunnel k session =>
    let tunnels := r.tunnels.insert session.tunnelId session.sessionId
    { r with
      tunnels
      replacedTunnel := r.replacedTunnel || r.tunnels.contains session.tunnelId
      gate := some (.sendBound k session (sortedTunnelBindings tunnels)) }
  | .sendBound k session snapshot =>
    { r.leave k (.running session) with tunnelUpdates := snapshot }
  -- `run_accepted_session`, removal
  | .removeTunnel k session =>
    let tunnels := if r.tunnels[session.tunnelId]? = some session.sessionId
      then r.tunnels.erase session.tunnelId else r.tunnels
    { r with tunnels, gate := some (.sendUnbound k session (sortedTunnelBindings tunnels)) }
  | .sendUnbound k session snapshot =>
    { r with tunnelUpdates := snapshot, gate := some (.removeSession k session) }
  | .removeSession k session =>
    let sessions := r.sessions.erase session.sessionId
    { r.setPhase k (.withdrawn session.tunnelId) with
      sessions
      gate := some (.sendRemoved k session (sortedSessionIds sessions))
      log := if session.sessionId ∈ r.sessions
        then r.log ++ [.removed session.sessionId] else r.log }
  | .sendRemoved k session snapshot =>
    { r.leave k (.closing session.tunnelId) with sessionUpdates := snapshot }
  -- `reconcile_authorization_snapshot`
  | .collectRevoked update =>
    let revoked := revokedIds r.sessions update.snapshot
    if revoked.isEmpty then { r with gate := some (.setStatus update revoked []) }
    else { r with gate := some (.retainTunnels update revoked) }
  | .retainTunnels update revoked =>
    let tunnels := r.tunnels.filter fun _ sessionId => sessionId ∉ revoked
    { r with tunnels, gate := some (.sendRetained update revoked (sortedTunnelBindings tunnels)) }
  | .sendRetained update revoked snapshot =>
    { r with tunnelUpdates := snapshot, gate := some (.removeRevoked update revoked) }
  | .removeRevoked update revoked =>
    let senders := revoked.filterMap fun sessionId => (r.sessions[sessionId]?).map (·.commands)
    let sessions := r.sessions.filter fun sessionId _ => sessionId ∉ revoked
    { r with
      sessions
      gate := some (.sendKept update revoked senders (sortedSessionIds sessions))
      log := r.log ++ (revoked.filter (· ∈ r.sessions)).map .removed }
  | .sendKept update revoked senders snapshot =>
    { r with sessionUpdates := snapshot, gate := some (.setStatus update revoked senders) }
  | .setStatus update revoked senders =>
    { r with
      authorizationUpdates :=
        { version := some update.snapshot.version
          source := update.source
          revokedSessions :=
            min (r.authorizationUpdates.revokedSessions + revoked.length) (2 ^ 64 - 1) }
      gate := none
      runtime := .notifying senders }
  -- `open_tunnel_io_tracked` and `open_stream_tracked`
  | .resolve tunnelId =>
    match r.resolveTunnel tunnelId with
    | .error _ => { r with gate := none }
    | .ok sessionId => { r with gate := some (.enqueue sessionId) }
  | .enqueue sessionId =>
    match r.enqueueIo sessionId with
    | .error _ => { r with gate := none }
    | .ok r' => { r' with gate := none }

/-! ## The transition system -/

inductive Action where
  | accept (peerCertificate : Option CertificateFingerprint)
  | register (k : Nat) (request : RegistrationRequest)
  | claim (k : Nat)
  | allocate (k : Nat)
  | registered (k : Nat)
  | handshakeFails (k : Nat)
  | lock (k : Nat)
  | receive (k : Nat)
  | sessionEnds (k : Nat)
  | release (k : Nat)
  | publish (candidate : VersionedAuthorizationSnapshot)
  | setSourceHealth (health : SnapshotSourceHealth)
  | snapshotChanged
  | readSnapshot
  | sourceClosed
  | lockReconcile
  | notifyRevoked
  | openTunnel (tunnelId : TunnelId)
  | openStream (sessionId : TransportSessionId)
  /-- Shutdown stops stream admission. -/
  | stopAccepting
  /-- The holder of the gate goes on. -/
  | holder

def step (r : Registry) : Action → Option Registry
  | .accept peerCertificate => r.accept peerCertificate
  | .register k request => r.register k request
  | .claim k => r.claim k
  | .allocate k => r.allocate k
  | .registered k => r.registered k
  | .handshakeFails k => r.handshakeFails k
  | .lock k => r.lock k
  | .receive k => r.receive k
  | .sessionEnds k => r.sessionEnds k
  | .release k => r.release k
  | .publish candidate => r.publishSnapshot candidate
  | .setSourceHealth health => some (r.setSourceHealth health)
  | .snapshotChanged => r.snapshotChanged
  | .readSnapshot => r.readSnapshot
  | .sourceClosed => r.sourceClosed
  | .lockReconcile => r.lockReconcile
  | .notifyRevoked => r.notifyRevoked
  | .openTunnel tunnelId => r.lockRouter (.resolve tunnelId)
  | .openStream sessionId => r.lockRouter (.enqueue sessionId)
  | .stopAccepting => some { r with acceptingStreams := false }
  | .holder => r.gate.map r.runSection

end Registry

end TunnelProxy.Edge
