import TunnelProxy.Control.SnapshotCache
import TunnelProxy.Control.SnapshotLimits

/-!
# Distribution of snapshots to an Edge

The Control Plane keeps a latest-value channel of snapshots. `serve_edge` answers one
`Subscribe` of a connection and then sends what the channel holds whenever it has changed.
The Edge runs `SnapshotClientRuntime`: it bootstraps online or from its file cache, stores
every snapshot in the cache before it publishes it, and reconnects when the stream fails,
until the last snapshot is too old.

The client takes its steps in the order of its `select!`s: when a deadline has passed, the
branch of the deadline is taken before the others. The wall clock and the clock of the
timers are one. The health flag of the publisher is left out.
-/

namespace TunnelProxy.Control

open Common

/-! ## The Control Plane -/

/-- Where `serve_edge` is. `seen` is the version of the channel that was last marked as
seen; a subscription is cloned from one that has seen nothing. -/
inductive ServePhase where
  | awaiting
  | subscribed (seen : Nat)
  /-- `changed` has returned; the snapshot is still to be read and sent. -/
  | woken (seen : Nat)
  | closed
deriving DecidableEq

/-- A connection: what is on its way to the Control Plane, and to the Edge. -/
structure Link where
  request : Option Nat
  server : ServePhase
  inbox : List SnapshotMessage

/-- The answer to `Subscribe`. -/
def subscribeResponse (current : VersionedAuthorizationSnapshot) (lastApplied : Nat) :
    SnapshotMessage :=
  if lastApplied = current.version.value then .upToDate current.version
  else if lastApplied < current.version.value then .snapshot current
  else .error .clientAhead

/-! ## The Edge -/

inductive SnapshotClientError where
  | connect
  | connectTimeout
  | tlsTimeout
  | tlsAuthentication
  | alpn
  | subscribeTimeout
  | protocol
  | server (code : SnapshotServiceErrorCode)
  | bootstrapResponse
  | unexpectedMessage
  | update (error : SnapshotUpdateError)
  | cache (error : SnapshotCacheError)
  | cacheExpired
deriving DecidableEq

def SnapshotClientError.allowsCacheFallback : SnapshotClientError → Bool
  | .connect | .connectTimeout | .tlsTimeout | .subscribeTimeout => true
  | _ => false

/-- The errors of `connect_and_subscribe`. -/
def SnapshotClientError.ofConnecting : SnapshotClientError → Bool
  | .connect | .connectTimeout | .tlsTimeout | .tlsAuthentication | .alpn | .subscribeTimeout
  | .protocol => true
  | _ => false

/-- Durations are nanoseconds. -/
structure SnapshotClientConfig where
  maxStaleAge : Nat
  reconnectInitialDelay : Nat
  reconnectMaxDelay : Nat

/-- What a snapshot is stored for. -/
inductive StorePurpose where
  | bootstrap
  | update
  | reconnect
  /-- The current snapshot, when it is up to date. -/
  | refresh
deriving DecidableEq

inductive ClientPhase where
  | down
  | bootstrapping
  | streaming (delay : Nat)
  /-- The stream is gone; `wait_for_retry` is next. -/
  | offline (delay : Nat)
  | waiting (delay : Nat) (expiresAt retryAt : Int)
  /-- `reconnect` is next. -/
  | retrying (delay : Nat)
  | reconnecting (delay : Nat) (expiresAt : Int)
  /-- The cache was called at the given time. -/
  | storing (purpose : StorePurpose) (snapshot : VersionedAuthorizationSnapshot) (time : Int)
      (delay : Nat)
deriving DecidableEq

structure Distribution where
  /-- The latest value of the channel. -/
  current : VersionedAuthorizationSnapshot
  /-- The version of the channel. -/
  epoch : Nat
  /-- All that the Control Plane has published, newest first. -/
  history : List VersionedAuthorizationSnapshot
  link : Option Link
  now : Int
  cache : FileSnapshotCache
  /-- The snapshot of the Edge. -/
  published : Option VersionedAuthorizationSnapshot
  authenticatedAt : Int
  phase : ClientPhase
  ended : Option (Except SnapshotClientError Unit)
  /-- When a stream failed, if the client has not been connected since. -/
  failedAt : Option Int
  /-- What this process of the Edge has published, newest first. -/
  log : List VersionedAuthorizationSnapshot
  /-- What any process of the Edge has published. -/
  everPublished : List VersionedAuthorizationSnapshot

inductive DistributionAction where
  -- the Control Plane
  | publish (candidate : VersionedAuthorizationSnapshot)
  | respond
  | changed
  | send
  | hangUp
  | restart
  -- the Edge
  | start
  | connect
  /-- `connect_and_subscribe` fails; `listed` is the cache directory as it is then read. -/
  | connectFails (error : SnapshotClientError) (listed : List (Text × List UInt8))
  /-- A message is read, and if it is a snapshot the cache is called. -/
  | receive (listed : List (Text × List UInt8))
  | readFails
  /-- An operation of the cache. -/
  | cache (action : CacheAction)
  /-- The call of the cache has returned. -/
  | stored
  | waitForRetry
  | reconnect
  /-- A deadline is noticed. -/
  | elapse
  | shutdown
  | crash
  /-- The clock is read, or set. -/
  | clock (now : Int)

namespace Distribution

def init (current : VersionedAuthorizationSnapshot) : Distribution :=
  { current, epoch := 0, history := [current], link := none, now := 0, cache := .init
    published := none, authenticatedAt := 0, phase := .down, ended := none, failedAt := none
    log := [], everPublished := [] }

/-- The client returns. -/
def finish (s : Distribution) (result : Except SnapshotClientError Unit) : Distribution :=
  { s with phase := .down, link := none, published := none, ended := some result }

def publishes (s : Distribution) (snapshot : VersionedAuthorizationSnapshot) (phase : ClientPhase) :
    Distribution :=
  { s with
    published := some snapshot, phase
    log := snapshot :: s.log, everPublished := snapshot :: s.everPublished }

section

variable (sha256 : Hash) (config : SnapshotClientConfig)

/-- `cache.store`, up to its first change of the directory. -/
def beginStore (s : Distribution) (purpose : StorePurpose)
    (snapshot : VersionedAuthorizationSnapshot) (delay : Nat) (listed : List (Text × List UInt8)) :
    Option Distribution :=
  (s.cache.step sha256 config.maxStaleAge (.store snapshot s.now listed)).map fun cache =>
    { s with cache, phase := .storing purpose snapshot s.now delay }

/-- The end of a store: the rest of `bootstrap_with_cache`, `persist_and_publish` or
`refresh_authenticated_cache`. -/
def afterStore (s : Distribution) (snapshot : VersionedAuthorizationSnapshot) (delay : Nat) :
    StorePurpose → Distribution
  | .bootstrap => s.publishes snapshot (.streaming config.reconnectInitialDelay)
  | .refresh => { s with phase := .streaming config.reconnectInitialDelay, failedAt := none }
  | purpose =>
    match s.published with
    | none => s
    | some current =>
      match Control.publish current snapshot with
      | .error error => s.finish (.error (.update error))
      | .ok (_, next) =>
        let delay := if purpose = .reconnect then config.reconnectInitialDelay else delay
        { s.publishes next (.streaming delay) with failedAt := none }

/-- `authenticated_at + max_stale_age` -/
def expiresAt (s : Distribution) : Int := s.authenticatedAt + config.maxStaleAge

/-- What the client does with a message. -/
def handle (s : Distribution) (message : SnapshotMessage) (listed : List (Text × List UInt8)) :
    Option Distribution :=
  match s.phase with
  | .bootstrapping =>
    match message with
    | .snapshot initial =>
      s.beginStore sha256 config .bootstrap initial config.reconnectInitialDelay listed
    | .error code => some (s.finish (.error (.server code)))
    | _ => some (s.finish (.error .bootstrapResponse))
  | .streaming delay =>
    match message with
    | .snapshot snapshot => s.beginStore sha256 config .update snapshot delay listed
    | .error code => some (s.finish (.error (.server code)))
    | _ => some (s.finish (.error .unexpectedMessage))
  | .reconnecting delay expiresAt =>
    if expiresAt ≤ s.now then none
    else match message with
      | .snapshot snapshot => s.beginStore sha256 config .reconnect snapshot delay listed
      | .upToDate version =>
        match s.published with
        | none => none
        | some current =>
          if version ≠ current.version then some (s.finish (.error .unexpectedMessage))
          else s.beginStore sha256 config .refresh current delay listed
      | .error code => some (s.finish (.error (.server code)))
      | .subscribe _ => some (s.finish (.error .unexpectedMessage))
  | _ => none

def step (s : Distribution) : DistributionAction → Option Distribution
  | .publish candidate =>
    match Control.publish s.current candidate with
    | .ok (.applied _ _, next) =>
      some { s with current := next, epoch := s.epoch + 1, history := next :: s.history }
    | _ => none
  | .respond =>
    match s.link with
    | some ⟨some lastApplied, .awaiting, inbox⟩ =>
      let response := subscribeResponse s.current lastApplied
      let server := match response with
        | .error _ => .closed
        | _ => .subscribed 0
      some { s with link := some ⟨none, server, inbox ++ [response]⟩ }
    | _ => none
  | .changed =>
    match s.link with
    | some ⟨request, .subscribed seen, inbox⟩ =>
      if seen ≠ s.epoch then some { s with link := some ⟨request, .woken s.epoch, inbox⟩ } else none
    | _ => none
  | .send =>
    match s.link with
    | some ⟨request, .woken seen, inbox⟩ =>
      some { s with link := some ⟨request, .subscribed seen, inbox ++ [.snapshot s.current]⟩ }
    | _ => none
  | .hangUp => s.link.map fun link => { s with link := some { link with server := .closed } }
  | .restart =>
    some { s with epoch := 0, link := s.link.map fun link => { link with server := .closed } }
  | .start =>
    if s.phase = .down then
      some { s with
        phase := .bootstrapping, link := none, published := none, ended := none
        failedAt := none, log := [] }
    else none
  | .connect =>
    if s.link.isSome then none
    else match s.phase with
      | .bootstrapping => some { s with link := some ⟨some 0, .awaiting, []⟩ }
      | .reconnecting _ expiresAt =>
        if expiresAt ≤ s.now then none
        else s.published.map fun current =>
          { s with link := some ⟨some current.version.value, .awaiting, []⟩ }
      | _ => none
  | .connectFails error listed =>
    if !error.ofConnecting then none
    else match s.phase with
      | .bootstrapping =>
        if !error.allowsCacheFallback then some (s.finish (.error error))
        else if listed.Perm s.cache.files then
          match loadUnlocked sha256 config.maxStaleAge listed s.now true with
          | .error error => some (s.finish (.error (.cache error)))
          | .ok cached =>
            some { s.publishes cached.snapshot (.offline config.reconnectInitialDelay) with
              link := none, authenticatedAt := cached.authenticatedAt }
        else none
      | .reconnecting delay expiresAt =>
        if expiresAt ≤ s.now then none
        else if !error.allowsCacheFallback then some (s.finish (.error error))
        else
          some { s with
            link := none, phase := .offline (min (delay * 2) config.reconnectMaxDelay) }
      | _ => none
  | .receive listed =>
    match s.link with
    | some ⟨request, server, message :: rest⟩ =>
      { s with link := some ⟨request, server, rest⟩ }.handle sha256 config message listed
    | _ => none
  | .readFails =>
    match s.phase with
    | .streaming delay =>
      some { s with link := none, phase := .offline delay, failedAt := some s.now }
    | _ => none
  | .cache action =>
    match s.phase with
    | .storing _ _ _ _ =>
      if action.isOperation then
        (s.cache.step sha256 config.maxStaleAge action).map fun cache => { s with cache }
      else none
    | _ => none
  | .stored =>
    match s.phase with
    | .storing purpose snapshot time delay =>
      match s.cache.call, s.cache.reply with
      | none, some (.ok ()) =>
        some ({ s with authenticatedAt := time }.afterStore config snapshot delay purpose)
      | none, some (.error error) => some (s.finish (.error (.cache error)))
      | _, _ => none
    | _ => none
  | .waitForRetry =>
    match s.phase with
    | .offline delay =>
      if s.expiresAt config < s.now then some (s.finish (.error .cacheExpired))
      else some { s with phase := .waiting delay (s.expiresAt config) (s.now + delay) }
    | _ => none
  | .reconnect =>
    match s.phase with
    | .retrying delay =>
      if s.expiresAt config < s.now then some (s.finish (.error .cacheExpired))
      else some { s with phase := .reconnecting delay (s.expiresAt config) }
    | _ => none
  | .elapse =>
    match s.phase with
    | .waiting delay expiresAt retryAt =>
      if expiresAt ≤ s.now then some (s.finish (.error .cacheExpired))
      else if retryAt ≤ s.now then some { s with phase := .retrying delay }
      else none
    | .reconnecting _ expiresAt =>
      if expiresAt ≤ s.now then some (s.finish (.error .cacheExpired)) else none
    | _ => none
  | .shutdown =>
    match s.phase with
    | .streaming _ | .waiting _ _ _ | .reconnecting _ _ => some (s.finish (.ok ()))
    | _ => none
  | .crash =>
    (s.cache.step sha256 config.maxStaleAge .kill).map fun cache =>
      { s with cache, phase := .down, link := none, published := none, ended := none }
  | .clock now => some { s with now }

end

end Distribution

end TunnelProxy.Control
