import TunnelProxy.Routes.Refresh

/-!
# The client of the route catalog

`HttpsRouteClientRuntime` keeps the catalog of an Edge up to date. It publishes every
catalog it reads from the stream. When the stream fails it goes on with the last catalog as
`Stale`, tries to reconnect, and makes the source `Expired` when it has not succeeded
within `max_stale_age`.

A step is one poll of one `select!`, at a given reading of the clock. What is ready comes
with the poll; which branch runs is decided by the order of the branches, since every
`select!` is biased. Between two polls nothing of the runtime runs, so what a poll writes
is seen together.

What a client has heard is said by the messages and failures that its polls bring, not by
what it makes of them (`RouteHistory`).

* `Fresh` — the catalog in use is the last one heard, the deadline of a runtime without a
  stream counts from the failure, and a poll at or after it makes the source `Expired`
* `poll_version_le` — a poll never publishes an older version
-/

namespace TunnelProxy.Routes

open Common Transition

/-! ## The publisher and its subscriptions -/

inductive HttpsRouteSourceHealth where
  | live
  | stale
  | expired
deriving DecidableEq, Repr

/-- What a subscription reads. -/
structure HttpsRouteCatalogSubscription where
  current : HttpsRouteCatalog
  sourceHealth : HttpsRouteSourceHealth
deriving DecidableEq

structure HttpsRouteCatalogPublisher where
  current : HttpsRouteCatalog
  /-- The latest value of the watch channel. -/
  updates : HttpsRouteCatalog
  health : HttpsRouteSourceHealth
deriving DecidableEq

namespace HttpsRouteCatalogPublisher

def publish (publisher : HttpsRouteCatalogPublisher) (candidate : HttpsRouteCatalog) :
    Except HttpsRouteUpdateError (HttpsRoutePublishOutcome × HttpsRouteCatalogPublisher) :=
  match Routes.publish publisher.current candidate with
  | .error error => .error error
  | .ok (.unchanged version, _) => .ok (.unchanged version, publisher)
  | .ok (.applied previous version, current) =>
    .ok (.applied previous version, { publisher with current, updates := current })

def setSourceHealth (publisher : HttpsRouteCatalogPublisher) (health : HttpsRouteSourceHealth) :
    HttpsRouteCatalogPublisher :=
  { publisher with health, updates := publisher.current }

def subscribe (publisher : HttpsRouteCatalogPublisher) : HttpsRouteCatalogSubscription :=
  ⟨publisher.updates, publisher.health⟩

end HttpsRouteCatalogPublisher

def httpsRouteCatalogChannel (initial : HttpsRouteCatalog) : HttpsRouteCatalogPublisher :=
  ⟨initial, initial, .live⟩

/-- A catalog that is accepted is the current one afterwards, and no older than the one
before. -/
theorem HttpsRouteCatalogPublisher.publish_eq_ok
    {publisher publisher' : HttpsRouteCatalogPublisher} {candidate : HttpsRouteCatalog}
    {outcome : HttpsRoutePublishOutcome}
    (h : publisher.publish candidate = .ok (outcome, publisher')) :
    publisher'.current = candidate ∧ publisher.current.version ≤ candidate.version := by
  unfold HttpsRouteCatalogPublisher.publish Routes.publish at h
  split_ifs at h with hOlder hSame hEqual
  · cases h
    exact ⟨hEqual.symm, hSame.ge⟩
  · cases h
    exact ⟨rfl, not_lt.mp hOlder⟩

/-! ## Messages and errors -/

inductive HttpsRouteServiceErrorCode where
  | invalidRequest
  | clientAhead
deriving DecidableEq, Repr

inductive HttpsRouteMessage where
  | subscribe (lastAppliedVersion : Nat)
  | catalog (catalog : HttpsRouteCatalog)
  | upToDate (version : HttpsRouteCatalogVersion)
  | error (code : HttpsRouteServiceErrorCode)
deriving DecidableEq

inductive HttpsRouteProtocolError where
  | io
  | catalog
  | invalidMagic
  | unsupportedVersion (version : UInt8)
  | unsupportedFlags
  | unknownMessageType (messageType : UInt8)
  | invalidPayload
  | payloadTooLarge
  | truncated
  | trailingBytes
deriving DecidableEq, Repr

inductive HttpsRouteClientError where
  | invalidConfig
  | connectTimeout
  | connect
  | tlsTimeout
  | tlsAuthentication
  | alpn
  | subscribeTimeout
  | protocol (error : HttpsRouteProtocolError)
  | server (code : HttpsRouteServiceErrorCode)
  | bootstrapResponse
  | unexpectedMessage
  | update (error : HttpsRouteUpdateError)
deriving DecidableEq

def HttpsRouteClientError.allowsRetry : HttpsRouteClientError → Bool
  | .connectTimeout | .connect | .tlsTimeout => true
  | _ => false

/-! ## The runtime -/

/-- Durations and readings of the clock are nanoseconds. All but the last field are those
of `inner`. -/
structure HttpsRouteClientConfig where
  connectTimeout : Nat
  handshakeTimeout : Nat
  subscribeTimeout : Nat
  reconnectInitialDelay : Nat
  reconnectMaxDelay : Nat
  maxStaleAge : Nat

def HttpsRouteClientConfig.validate (config : HttpsRouteClientConfig) :
    Except HttpsRouteClientError Unit :=
  if config.maxStaleAge = 0 ∨ config.connectTimeout = 0 ∨ config.handshakeTimeout = 0 ∨
      config.subscribeTimeout = 0 ∨ config.reconnectInitialDelay = 0 ∨
      config.reconnectMaxDelay < config.reconnectInitialDelay then
    .error .invalidConfig
  else .ok ()

/-- What the runtime awaits. -/
inductive RoutePhase where
  /-- A message of the stream it holds. -/
  | streaming
  /-- The expiry, if it is enabled, or the end of the delay. -/
  | waiting (expiresAt : Int) (expiryEnabled : Bool) (retryAt : Int)
  /-- The expiry, if it is enabled, or `connect_and_subscribe`. -/
  | reconnecting (expiresAt : Int) (expiryEnabled : Bool) (lastAppliedVersion : Nat)
  | ended (result : Except HttpsRouteClientError Unit)
deriving DecidableEq

structure HttpsRouteClientRuntime where
  publisher : HttpsRouteCatalogPublisher
  authenticatedAt : Int
  delay : Nat
  phase : RoutePhase
  /-- The reading of the last poll. -/
  now : Int
deriving DecidableEq

/-- What a poll finds. -/
structure RoutePoll where
  now : Int
  cancelled : Bool
  /-- The next message of the stream, or its failure. -/
  read : Option (Except HttpsRouteProtocolError HttpsRouteMessage)
  /-- The result of `connect_and_subscribe`; a stream comes with the message. -/
  reconnect : Option (Except HttpsRouteClientError HttpsRouteMessage)
deriving DecidableEq

/-- `HttpsRouteBootstrapClient::bootstrap`, answered at `now`, and the first lines of
`run_until_shutdown`. -/
def bootstrap (config : HttpsRouteClientConfig)
    (response : Except HttpsRouteClientError HttpsRouteMessage) (now : Int) :
    Except HttpsRouteClientError HttpsRouteClientRuntime := do
  config.validate
  match ← response with
  | .catalog initial =>
    .ok
      { publisher := httpsRouteCatalogChannel initial
        authenticatedAt := now
        delay := config.reconnectInitialDelay
        phase := .streaming
        now }
  | .error code => .error (.server code)
  | _ => .error .bootstrapResponse

namespace HttpsRouteClientRuntime

def subscription (s : HttpsRouteClientRuntime) : HttpsRouteCatalogSubscription :=
  s.publisher.subscribe

def finish (s : HttpsRouteClientRuntime) (result : Except HttpsRouteClientError Unit) :
    HttpsRouteClientRuntime :=
  { s with phase := .ended result }

/-- The loop with a stream that has just been heard. -/
def hold (config : HttpsRouteClientConfig) (s : HttpsRouteClientRuntime) :
    HttpsRouteClientRuntime :=
  { s with
    publisher := s.publisher.setSourceHealth .live
    authenticatedAt := s.now
    delay := config.reconnectInitialDelay
    phase := .streaming }

/-- A `Catalog` message, of the stream it holds or of a new one. -/
def accept (config : HttpsRouteClientConfig) (s : HttpsRouteClientRuntime)
    (catalog : HttpsRouteCatalog) : HttpsRouteClientRuntime :=
  match s.publisher.publish catalog with
  | .error error => s.finish (.error (.update error))
  | .ok (_, publisher) => { s with publisher }.hold config

/-- The loop without a stream. -/
def wait (config : HttpsRouteClientConfig) (s : HttpsRouteClientRuntime) :
    HttpsRouteClientRuntime :=
  { s with
    phase := .waiting (s.authenticatedAt + config.maxStaleAge)
      (s.subscription.sourceHealth ≠ .expired) (s.now + s.delay) }

def fail (config : HttpsRouteClientConfig) (s : HttpsRouteClientRuntime) :
    HttpsRouteClientRuntime :=
  { s with
    authenticatedAt := s.now
    publisher := s.publisher.setSourceHealth .stale }.wait config

def expire (config : HttpsRouteClientConfig) (s : HttpsRouteClientRuntime) :
    HttpsRouteClientRuntime :=
  { s with publisher := s.publisher.setSourceHealth .expired }.wait config

/-- The match on the result of `connect_and_subscribe`. -/
def reconnected (config : HttpsRouteClientConfig) (s : HttpsRouteClientRuntime) :
    Except HttpsRouteClientError HttpsRouteMessage → HttpsRouteClientRuntime
  | .ok (.catalog catalog) => s.accept config catalog
  | .ok (.upToDate version) =>
    if version = s.publisher.current.version then s.hold config
    else s.finish (.error .unexpectedMessage)
  | .ok (.error code) => s.finish (.error (.server code))
  | .ok (.subscribe _) => s.finish (.error .unexpectedMessage)
  | .error error =>
    if error.allowsRetry then
      { s with delay := min (s.delay * 2) config.reconnectMaxDelay }.wait config
    else s.finish (.error error)

/-- The first branch that is ready of the `select!` that the runtime awaits. -/
def select (config : HttpsRouteClientConfig) (s : HttpsRouteClientRuntime) (p : RoutePoll) :
    Option HttpsRouteClientRuntime :=
  match s.phase with
  | .ended _ => none
  | .streaming =>
    if p.cancelled then some (s.finish (.ok ()))
    else match p.read with
      | none => some s
      | some (.ok (.catalog catalog)) => some (s.accept config catalog)
      | some (.ok _) => some (s.finish (.error .unexpectedMessage))
      | some (.error _) => some (s.fail config)
  | .waiting expiresAt expiryEnabled retryAt =>
    if p.cancelled then some (s.finish (.ok ()))
    else if expiryEnabled ∧ expiresAt ≤ s.now then some (s.expire config)
    else if retryAt ≤ s.now then
      some { s with
        phase := .reconnecting expiresAt expiryEnabled s.publisher.current.version.value }
    else some s
  | .reconnecting expiresAt expiryEnabled _ =>
    if p.cancelled then some (s.finish (.ok ()))
    else if expiryEnabled ∧ expiresAt ≤ s.now then some (s.expire config)
    else match p.reconnect with
      | none => some s
      | some result => some (s.reconnected config result)

/-- One poll. Readings of `Instant` do not go back. -/
def poll (config : HttpsRouteClientConfig) (s : HttpsRouteClientRuntime) (p : RoutePoll) :
    Option HttpsRouteClientRuntime :=
  if p.now < s.now then none else { s with now := p.now }.select config p

/-! ## What every poll keeps -/

def running (s : HttpsRouteClientRuntime) : Bool :=
  match s.phase with
  | .ended _ => false
  | _ => true

/-- The runtime holds an authenticated stream. -/
def holdsStream (s : HttpsRouteClientRuntime) : Bool := s.phase = .streaming

/-- The deadline of a runtime without a stream, and whether it is enabled. -/
def deadline? (s : HttpsRouteClientRuntime) : Option (Int × Bool) :=
  match s.phase with
  | .waiting expiresAt expiryEnabled _ => some (expiresAt, expiryEnabled)
  | .reconnecting expiresAt expiryEnabled _ => some (expiresAt, expiryEnabled)
  | _ => none

/-- The last catalog that a stream has brought, and when the stream failed, until the next one
is held. -/
structure RouteHistory where
  catalog : HttpsRouteCatalog
  failedAt : Option Int
deriving DecidableEq

/-- A new stream comes with a catalog, or with the news that the last one is current. -/
def RouteHistory.reconnected (history : RouteHistory) :
    Except HttpsRouteClientError HttpsRouteMessage → RouteHistory
  | .ok (.catalog catalog) => ⟨catalog, none⟩
  | .ok (.upToDate _) => { history with failedAt := none }
  | _ => history

/-- What a poll brings: a message or the failure of the stream that is held, or a new stream,
unless the attempt is dropped for the deadline. -/
def RouteHistory.observe (history : RouteHistory) (s : HttpsRouteClientRuntime)
    (p : RoutePoll) : RouteHistory :=
  match s.phase with
  | .streaming =>
    match p.read with
    | some (.ok (.catalog catalog)) => ⟨catalog, none⟩
    | some (.error _) => { history with failedAt := some p.now }
    | _ => history
  | .reconnecting expiresAt expiryEnabled _ =>
    if expiryEnabled ∧ expiresAt ≤ p.now then history
    else p.reconnect.elim history history.reconnected
  | _ => history

/-- What the polls of a run bring. -/
def heard (config : HttpsRouteClientConfig) (history : RouteHistory)
    (s : HttpsRouteClientRuntime) : List RoutePoll → RouteHistory
  | [] => history
  | p :: polls => match s.poll config p with
    | none => history
    | some s' => heard config (history.observe s p) s' polls

variable {config : HttpsRouteClientConfig} {s s' : HttpsRouteClientRuntime} {p : RoutePoll}
  {polls : List RoutePoll} {history : RouteHistory}

/-- A runtime that has no stream since `authenticatedAt`. -/
structure Offline (config : HttpsRouteClientConfig) (history : RouteHistory)
    (s : HttpsRouteClientRuntime) : Prop where
  failedAt : history.failedAt = some s.authenticatedAt
  notLive : s.publisher.health ≠ .live
  /-- The source has expired when the last poll was at or after the deadline. -/
  expired : s.publisher.health = .expired ↔ s.authenticatedAt + config.maxStaleAge ≤ s.now

structure Fresh (config : HttpsRouteClientConfig) (history : RouteHistory)
    (s : HttpsRouteClientRuntime) : Prop where
  updates : s.publisher.updates = s.publisher.current
  catalog : s.running → s.publisher.current = history.catalog
  streaming : s.phase = .streaming → s.publisher.health = .live ∧ history.failedAt = none
  offline : ∀ expiresAt expiryEnabled, s.deadline? = some (expiresAt, expiryEnabled) →
    s.Offline config history ∧ expiresAt = s.authenticatedAt + config.maxStaleAge ∧
      expiryEnabled = decide (s.publisher.health ≠ .expired)

section

variable {result : Except HttpsRouteClientError Unit} {catalog : HttpsRouteCatalog}
  {response : Except HttpsRouteClientError HttpsRouteMessage}
  (hUpdates : s.publisher.updates = s.publisher.current)
  (hCatalog : s.publisher.current = history.catalog)

include hUpdates in
theorem Fresh.finish : (s.finish result).Fresh config history where
  updates := hUpdates
  catalog := nofun
  streaming := nofun
  offline := nofun

include hCatalog in
theorem Fresh.hold (hNone : history.failedAt = none) : (s.hold config).Fresh config history where
  updates := rfl
  catalog := fun _ => hCatalog
  streaming := fun _ => ⟨rfl, hNone⟩
  offline := nofun

include hUpdates in
/-- A catalog is in use from then on, or the runtime ends. -/
theorem Fresh.accept : (s.accept config catalog).Fresh config ⟨catalog, none⟩ := by
  unfold HttpsRouteClientRuntime.accept
  split
  · exact Fresh.finish hUpdates
  · rename_i hPublish
    exact Fresh.hold (HttpsRouteCatalogPublisher.publish_eq_ok hPublish).1 rfl

include hUpdates hCatalog in
/-- The runtime waits for its deadline. -/
theorem Fresh.of_offline (hOffline : s.Offline config history)
    (hDeadline : s.deadline? = some (s.authenticatedAt + config.maxStaleAge,
      decide (s.publisher.health ≠ .expired))) : s.Fresh config history where
  updates := hUpdates
  catalog := fun _ => hCatalog
  streaming := by
    intro hPhase
    rw [deadline?, hPhase] at hDeadline
    cases hDeadline
  offline := by
    intro _ _ hOther
    cases hDeadline.symm.trans hOther
    exact ⟨hOffline, rfl, rfl⟩

include hUpdates hCatalog in
theorem Fresh.wait (hOffline : s.Offline config history) : (s.wait config).Fresh config history :=
  .of_offline hUpdates hCatalog { hOffline with } rfl

include hCatalog in
/-- The source has time left when the stream fails. -/
theorem Fresh.fail (hPos : 0 < config.maxStaleAge) :
    (s.fail config).Fresh config { history with failedAt := some s.now } := by
  refine Fresh.wait rfl hCatalog ⟨rfl, nofun, nofun, ?_⟩
  intro hLate
  have hLate : s.now + (config.maxStaleAge : Int) ≤ s.now := hLate
  omega

include hCatalog in
theorem Fresh.expire (hFailed : history.failedAt = some s.authenticatedAt)
    (hLate : s.authenticatedAt + config.maxStaleAge ≤ s.now) :
    (s.expire config).Fresh config history :=
  Fresh.wait rfl hCatalog ⟨hFailed, nofun, ⟨fun _ => hLate, fun _ => rfl⟩⟩

include hUpdates hCatalog in
theorem Fresh.reconnected (hOffline : s.Offline config history) :
    (s.reconnected config response).Fresh config (history.reconnected response) := by
  unfold HttpsRouteClientRuntime.reconnected
  split
  · exact Fresh.accept hUpdates
  · split_ifs
    · exact Fresh.hold hCatalog rfl
    · exact Fresh.finish hUpdates
  · exact Fresh.finish hUpdates
  · exact Fresh.finish hUpdates
  · split_ifs
    · exact Fresh.wait hUpdates hCatalog { hOffline with }
    · exact Fresh.finish hUpdates

end

/-- Where the deadline has not just passed, what had expired before the poll stays so and
the rest still has time. -/
theorem Offline.tick {now : Int} (h : s.Offline config history) (hNow : s.now ≤ now)
    (hTime : ¬(decide (s.publisher.health ≠ .expired) = true ∧
      s.authenticatedAt + config.maxStaleAge ≤ now)) :
    ({ s with now } : HttpsRouteClientRuntime).Offline config history where
  failedAt := h.failedAt
  notLive := h.notLive
  expired := by
    constructor
    · intro hExpired
      exact (h.expired.mp hExpired).trans hNow
    · intro hLate
      by_contra hHealth
      exact hTime ⟨decide_eq_true hHealth, hLate⟩

/-- **Step lemma.** The runtime goes on from what the poll brings. -/
theorem Fresh.poll (hPos : 0 < config.maxStaleAge) (h : s.Fresh config history)
    (hStep : s.poll config p = some s') : s'.Fresh config (history.observe s p) := by
  unfold HttpsRouteClientRuntime.poll at hStep
  by_cases hBack : p.now < s.now
  · rw [if_pos hBack] at hStep
    cases hStep
  have hNow : s.now ≤ p.now := not_lt.mp hBack
  rw [if_neg hBack, select] at hStep
  unfold RouteHistory.observe
  cases hPhase : s.phase with
  | ended =>
    simp only [hPhase] at hStep
    cases hStep
  | streaming =>
    have hCatalog := h.catalog (by rw [running, hPhase])
    simp only [hPhase] at hStep
    split_ifs at hStep
    · cases hStep
      exact Fresh.finish h.updates
    cases hRead : p.read with
    | none =>
      rw [hRead] at hStep
      cases hStep
      exact ⟨h.updates, fun _ => hCatalog, fun _ => h.streaming hPhase, nofun⟩
    | some read =>
      rw [hRead] at hStep
      cases read with
      | error =>
        -- from here on the deadline counts
        cases hStep
        exact Fresh.fail (s := { s with phase := .streaming, now := p.now }) hCatalog hPos
      | ok message =>
        cases message with
        | catalog =>
          cases hStep
          exact Fresh.accept h.updates
        | _ =>
          cases hStep
          exact Fresh.finish h.updates
  | waiting expiresAt expiryEnabled =>
    have hCatalog := h.catalog (by rw [running, hPhase])
    simp only [hPhase] at hStep
    obtain ⟨hOffline, rfl, rfl⟩ := h.offline expiresAt expiryEnabled (by rw [deadline?, hPhase])
    split_ifs at hStep with hCancelled hExpiry hRetry
    · cases hStep
      exact Fresh.finish h.updates
    · cases hStep
      exact Fresh.expire hCatalog hOffline.failedAt hExpiry.2
    all_goals
      -- the deadline has not passed, or its branch would have been taken
      have hTick := hOffline.tick hNow hExpiry
      cases hStep
      exact .of_offline h.updates hCatalog { hTick with } rfl
  | reconnecting expiresAt expiryEnabled =>
    have hCatalog := h.catalog (by rw [running, hPhase])
    simp only [hPhase] at hStep
    obtain ⟨hOffline, rfl, rfl⟩ := h.offline expiresAt expiryEnabled (by rw [deadline?, hPhase])
    split_ifs at hStep with hCancelled hExpiry
    · cases hStep
      exact Fresh.finish h.updates
    · cases hStep
      dsimp only
      rw [if_pos hExpiry]
      exact Fresh.expire hCatalog hOffline.failedAt hExpiry.2
    have hTick := hOffline.tick hNow hExpiry
    dsimp only
    rw [if_neg hExpiry]
    cases hReconnect : p.reconnect with
    | none =>
      rw [hReconnect] at hStep
      cases hStep
      exact .of_offline h.updates hCatalog { hTick with } rfl
    | some =>
      rw [hReconnect] at hStep
      cases hStep
      exact Fresh.reconnected h.updates hCatalog { hTick with }

theorem Fresh.run (hPos : 0 < config.maxStaleAge) (h : s.Fresh config history)
    (hRun : exec (HttpsRouteClientRuntime.poll config) s polls = some s') :
    s'.Fresh config (heard config history s polls) := by
  induction polls generalizing s history with
  | nil =>
    cases hRun
    exact h
  | cons p _ ih =>
    obtain ⟨s₁, hPoll, hRest⟩ := exec_cons_eq_some.mp hRun
    rw [heard, hPoll]
    exact ih (h.poll hPos hPoll) hRest

theorem accept_version_le (catalog : HttpsRouteCatalog) :
    s.publisher.current.version ≤ (s.accept config catalog).publisher.current.version := by
  unfold accept
  split
  · exact le_rfl
  · rename_i hPublish
    obtain ⟨hCurrent, hLe⟩ := HttpsRouteCatalogPublisher.publish_eq_ok hPublish
    exact hCurrent ▸ hLe

/-- Only a catalog that was accepted replaces the current one. -/
theorem select_version_le (hStep : s.select config p = some s') :
    s.publisher.current.version ≤ s'.publisher.current.version := by
  unfold select at hStep
  split at hStep
  · cases hStep
  · split_ifs at hStep
    · cases hStep
      exact le_rfl
    split at hStep
    · cases hStep
      exact le_rfl
    · cases hStep
      exact accept_version_le _
    · cases hStep
      exact le_rfl
    · cases hStep
      exact le_rfl
  · split_ifs at hStep
    all_goals
      cases hStep
      exact le_rfl
  · split_ifs at hStep
    · cases hStep
      exact le_rfl
    · cases hStep
      exact le_rfl
    split at hStep
    · cases hStep
      exact le_rfl
    · cases hStep
      unfold reconnected
      split
      · exact accept_version_le _
      all_goals
        try split_ifs
        all_goals exact le_rfl

theorem poll_version_le (hStep : s.poll config p = some s') :
    s.publisher.current.version ≤ s'.publisher.current.version := by
  unfold poll at hStep
  split_ifs at hStep
  have hLe := select_version_le hStep
  exact hLe

theorem run_version_le (hRun : exec (poll config) s polls = some s') :
    s.publisher.current.version ≤ s'.publisher.current.version :=
  exec_induction
    (P := fun s₁ => s.publisher.current.version ≤ s₁.publisher.current.version)
    (fun _ _ _ hLe hStep => hLe.trans (poll_version_le hStep)) le_rfl hRun

end HttpsRouteClientRuntime

theorem bootstrap_fresh {config : HttpsRouteClientConfig} {initial : HttpsRouteCatalog}
    {now : Int} {s : HttpsRouteClientRuntime}
    (h : bootstrap config (.ok (.catalog initial)) now = .ok s) :
    0 < config.maxStaleAge ∧ s.Fresh config ⟨initial, none⟩ := by
  unfold bootstrap HttpsRouteClientConfig.validate at h
  by_cases hInvalid : config.maxStaleAge = 0 ∨ config.connectTimeout = 0 ∨
      config.handshakeTimeout = 0 ∨ config.subscribeTimeout = 0 ∨
      config.reconnectInitialDelay = 0 ∨ config.reconnectMaxDelay < config.reconnectInitialDelay
  · rw [if_pos hInvalid] at h
    cases h
  rw [if_neg hInvalid] at h
  cases h
  exact ⟨Nat.pos_of_ne_zero fun hZero => hInvalid (.inl hZero), rfl, fun _ => rfl,
    fun _ => ⟨rfl, rfl⟩, nofun⟩

end TunnelProxy.Routes
