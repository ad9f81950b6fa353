import TunnelProxy.Control.Snapshot

/-!
# Registration policy of the Edge

Who may register a tunnel: a fixed list in loopback development mode, the current
authorization snapshot with mutual TLS. The policy is asked twice for one session, in
the handshake and again under the authorization gate (`reauthorize`).

* `authorize_tunnelId` — the principal returned is the one asked for
* `reauthorize_mutualTls` — with mutual TLS, passing the second check is being
  authorized by the current snapshot
-/

namespace TunnelProxy.Edge

open Common Control

structure RegistrationRequest where
  agentId : AgentId
  tunnelId : TunnelId
deriving DecidableEq

/-- The principal a session was authorized as. -/
structure AuthorizedRegistration where
  certificate : Option CertificateFingerprint
  agentId : AgentId
  tunnelId : TunnelId
  snapshotVersion : Option SnapshotVersion
deriving DecidableEq

/-- The codes of the ERROR frame that answers a rejected registration. -/
inductive HandshakeErrorCode where
  | unauthorizedAgent
  | unauthorizedTunnel
  | tunnelDisabled
  | tunnelAlreadyConnected
deriving DecidableEq, Repr

/-- `EdgeRegistrationMode`. With mutual TLS it holds the value of the snapshot watch
channel, and whether the runtime subscribes to later ones (`static_source` is none or
`local_updates` is set). -/
inductive EdgeRegistrationMode where
  | loopbackDevelopment (registrations : List RegistrationRequest)
  | mutualTls (current : VersionedAuthorizationSnapshot) (liveUpdates : Bool)

namespace EdgeRegistrationMode

def hasLiveUpdates : EdgeRegistrationMode → Bool
  | .loopbackDevelopment _ => false
  | .mutualTls _ liveUpdates => liveUpdates

def current : EdgeRegistrationMode → Option VersionedAuthorizationSnapshot
  | .loopbackDevelopment _ => none
  | .mutualTls current _ => some current

def snapshotVersion (mode : EdgeRegistrationMode) : Option SnapshotVersion :=
  mode.current.map (·.version)

/-- The code that reports an authorization failure to the Agent. -/
def errorCode : AuthorizationError → HandshakeErrorCode
  | .unknownCertificate | .agentMismatch => .unauthorizedAgent
  | .tunnelNotAuthorized => .unauthorizedTunnel
  | .tunnelDisabled => .tunnelDisabled

def authorize (mode : EdgeRegistrationMode) (peerCertificate : Option CertificateFingerprint)
    (request : RegistrationRequest) : Except HandshakeErrorCode AuthorizedRegistration :=
  match mode with
  | .loopbackDevelopment registrations =>
    if request ∈ registrations then
      .ok ⟨none, request.agentId, request.tunnelId, none⟩
    else if registrations.any (·.agentId = request.agentId) then .error .unauthorizedTunnel
    else .error .unauthorizedAgent
  | .mutualTls current _ =>
    match peerCertificate with
    | none => .error .unauthorizedAgent
    | some certificate =>
      match current.snapshot.authorize certificate request.agentId request.tunnelId with
      | .error error => .error (errorCode error)
      | .ok () =>
        .ok ⟨some certificate, request.agentId, request.tunnelId, some current.version⟩

def reauthorize (mode : EdgeRegistrationMode) (principal : AuthorizedRegistration) : Bool :=
  (mode.authorize principal.certificate ⟨principal.agentId, principal.tunnelId⟩).isOk

end EdgeRegistrationMode

/-- `principal_is_authorized`: a principal without a certificate never is. -/
def principalIsAuthorized (snapshot : VersionedAuthorizationSnapshot)
    (principal : AuthorizedRegistration) : Bool :=
  match principal.certificate with
  | none => false
  | some certificate =>
    (snapshot.snapshot.authorize certificate principal.agentId principal.tunnelId).isOk

namespace EdgeRegistrationMode

variable {mode : EdgeRegistrationMode} {peerCertificate : Option CertificateFingerprint}
  {request : RegistrationRequest} {principal : AuthorizedRegistration}

theorem authorize_tunnelId (h : mode.authorize peerCertificate request = .ok principal) :
    principal.tunnelId = request.tunnelId := by
  unfold authorize at h
  split at h
  · split at h
    · cases h
      rfl
    · split at h <;> cases h
  · split at h
    · cases h
    · split at h <;> cases h
      rfl

/-- With mutual TLS the second check asks the snapshot that is current then, as a
reconciliation with that snapshot would. -/
theorem reauthorize_mutualTls {current : VersionedAuthorizationSnapshot}
    (hMode : mode.current = some current) (h : mode.reauthorize principal) :
    principalIsAuthorized current principal := by
  cases mode with
  | loopbackDevelopment => cases hMode
  | mutualTls =>
    cases hMode
    unfold reauthorize authorize at h
    unfold principalIsAuthorized
    cases hCertificate : principal.certificate with
    | none => simp [hCertificate, Except.isOk, Except.toBool] at h
    | some certificate =>
      simp only [hCertificate] at h
      cases hAuthorize : current.snapshot.authorize certificate principal.agentId
          principal.tunnelId with
      | error error => simp [hAuthorize, Except.isOk, Except.toBool] at h
      | ok _ => simp [hAuthorize, Except.isOk, Except.toBool]

end EdgeRegistrationMode

end TunnelProxy.Edge
