import TunnelProxy.Agent.Journal

/-!
# The rotation of an Agent's credentials

`rotate` of the Agent, the enrollment server that answers it, and the repository, as one
system. Each step is one operation of `rotate` that can be observed from outside or after a
crash: a read, a removal or a rename of a file, a request, a response. Requests stay with
the server until it answers or drops them, also when the Agent has given up waiting or has
crashed, so that an old request may be served at any time later. Everyone else's operations
on the repository are steps of their own.

Random values are new: `draw` takes a request id and a token that nobody has used, nobody
else uses those of this Agent afterwards (`foreign`), and a certificate that is signed is
new as well (its serial number is the request id). Left out are the contents of errors, and
of the TLS configuration only whether it is accepted.
-/

namespace TunnelProxy.Agent

open Common Control Control.Enrollment

/-! ## Messages -/

inductive EnrollmentRequest where
  | enroll (requestId : EnrollmentRequestId) (token nextRenewalToken : EnrollmentToken)
      (agentId : AgentId) (tunnelId : TunnelId) (csrDer : List UInt8)
  | activate (requestId : EnrollmentRequestId) (renewalToken : EnrollmentToken)
      (fingerprint : CertificateFingerprint)
deriving DecidableEq

structure IssuedEnrollment where
  requestId : EnrollmentRequestId
  generation : SnapshotVersion
  notAfterUnix : Nat
  certificatePem : List UInt8
  serverCaPem : List UInt8
  fingerprint : CertificateFingerprint
deriving DecidableEq

inductive EnrollmentResponse where
  | issued (issued : IssuedEnrollment)
  | activated (snapshotVersion : SnapshotVersion)
  | error (code : EnrollmentErrorCode)
deriving DecidableEq

def repositoryErrorCode : EnrollmentRepositoryError → EnrollmentErrorCode
  | .unauthorized => .unauthorized
  | .tokenExpired => .tokenExpired
  | .credentialRevoked => .credentialRevoked
  | .requestExpired => .requestExpired
  | .identityMismatch => .identityMismatch
  | .conflict => .conflict
  | .storage | .uninitialized | .corrupt | .invalidTime | .versionExhausted => .internal

/-- A request that the server has not answered yet. -/
structure Exchange where
  id : Nat
  request : EnrollmentRequest
  /-- `preflight_issuance` found no row and a valid token. -/
  preflighted : Bool
deriving DecidableEq

/-! ## Files -/

/-- The manifest lists the digests of the files. -/
structure CredentialManifest where
  generation : SnapshotVersion
  serverCa : Digest
  clientCertificate : Digest
  clientPrivateKey : Digest
deriving DecidableEq

structure AgentFiles where
  token : Option (List UInt8)
  pending : Option (List UInt8)
  serverCa : Option (List UInt8)
  clientCertificate : Option (List UInt8)
  clientPrivateKey : Option (List UInt8)
  reloadManifest : Option CredentialManifest
deriving DecidableEq

/-- The files of the credential bundle, in the order in which they are replaced. -/
inductive BundleFile where
  | serverCa
  | clientCertificate
  | clientPrivateKey
  | reloadManifest
deriving DecidableEq

def BundleFile.next : BundleFile → Option BundleFile
  | .serverCa => some .clientCertificate
  | .clientCertificate => some .clientPrivateKey
  | .clientPrivateKey => some .reloadManifest
  | .reloadManifest => none

namespace AgentFiles

/-- `read_token` -/
def token? (files : AgentFiles) : Option EnrollmentToken :=
  files.token.bind fun file => (readToken file).toOption

/-- The request in the journal. -/
def journal? (files : AgentFiles) : Option PendingEnrollment :=
  files.pending.bind fun file => (decodePending file).toOption

def has (files : AgentFiles) : BundleFile → Bool
  | .serverCa => files.serverCa.isSome
  | .clientCertificate => files.clientCertificate.isSome
  | .clientPrivateKey => files.clientPrivateKey.isSome
  | .reloadManifest => files.reloadManifest.isSome

def remove (files : AgentFiles) : BundleFile → AgentFiles
  | .serverCa => { files with serverCa := none }
  | .clientCertificate => { files with clientCertificate := none }
  | .clientPrivateKey => { files with clientPrivateKey := none }
  | .reloadManifest => { files with reloadManifest := none }

/-- The rename at the end of `replace_file`. -/
def put (sha256 : Hash) (files : AgentFiles) (pending : PendingEnrollment)
    (issued : IssuedEnrollment) : BundleFile → AgentFiles
  | .serverCa => { files with serverCa := some issued.serverCaPem }
  | .clientCertificate => { files with clientCertificate := some issued.certificatePem }
  | .clientPrivateKey => { files with clientPrivateKey := some pending.privateKeyPem }
  | .reloadManifest =>
    { files with
      reloadManifest := some ⟨issued.generation, sha256 issued.serverCaPem,
        sha256 issued.certificatePem, sha256 pending.privateKeyPem⟩ }

/-- The certificate of a bundle whose files are all there and are the ones that the manifest
lists. -/
def completeBundle (sha256 : Hash) (files : AgentFiles) : Option (List UInt8) :=
  match files.serverCa, files.clientCertificate, files.clientPrivateKey, files.reloadManifest with
  | some ca, some certificate, some key, some manifest =>
    if manifest.serverCa = sha256 ca ∧ manifest.clientCertificate = sha256 certificate ∧
        manifest.clientPrivateKey = sha256 key then some certificate
    else none
  | _, _, _, _ => none

end AgentFiles

/-! ## The system -/

/-- What `rotate` does next. -/
inductive RotatePhase where
  | idle
  /-- `read_token` -/
  | reading
  /-- `load_or_create_pending` -/
  | loading (token : EnrollmentToken)
  /-- `create_pending`, as there is no journal -/
  | creating (token : EnrollmentToken)
  /-- the rename of the new journal -/
  | journaling (token : EnrollmentToken) (pending : PendingEnrollment)
  /-- the comparison of the tokens, and `issue` -/
  | ready (token : EnrollmentToken) (pending : PendingEnrollment)
  /-- the removal of a journal whose rotation is complete -/
  | completing
  | enrolling (token : EnrollmentToken) (pending : PendingEnrollment) (exchange : Nat)
      (response : Option EnrollmentResponse)
  /-- `replace_expired_pending` -/
  | expired
  | replacing (pending : PendingEnrollment)
  /-- `publish_agent_credential_bundle` -/
  | publishing (pending : PendingEnrollment) (issued : IssuedEnrollment) (file : BundleFile)
  /-- the wait for the TLS configuration, if there is one, and `activate` -/
  | reloading (pending : PendingEnrollment) (issued : IssuedEnrollment)
  | activating (pending : PendingEnrollment) (issued : IssuedEnrollment) (exchange : Nat)
      (response : Option EnrollmentResponse)
  /-- `write_token` -/
  | storing (pending : PendingEnrollment) (issued : IssuedEnrollment)
  /-- the removal of the journal -/
  | clearing (pending : PendingEnrollment) (issued : IssuedEnrollment)
deriving DecidableEq

/-- The response reaches the Agent if it still waits for it. -/
def RotatePhase.answered (phase : RotatePhase) (id : Nat) (response : EnrollmentResponse) :
    RotatePhase :=
  match phase with
  | .enrolling token pending exchange none =>
    if exchange = id then .enrolling token pending exchange (some response) else phase
  | .activating pending issued exchange none =>
    if exchange = id then .activating pending issued exchange (some response) else phase
  | _ => phase

/-- The identity that `rotate` enrolls; the paths are the fields of `AgentFiles`. -/
structure AgentEnrollmentConfig where
  agentId : AgentId
  tunnelId : TunnelId

structure Rotation where
  db : Db
  files : AgentFiles
  phase : RotatePhase
  exchanges : List Exchange
  nextExchange : Nat
  /-- What the last call returned, until the next call or a crash. -/
  ended : Option (Except AgentEnrollmentError Nat)
  /-- The token that the Agent was provisioned with. -/
  bootstrap : Option EnrollmentToken
  /-- The requests that the Agent has made up. -/
  drawn : List PendingEnrollment
  /-- An activation of the Agent has committed. -/
  activated : Bool
  /-- The call in progress, or the last one, began after that. -/
  late : Bool
deriving DecidableEq

inductive RotationAction where
  | rotate
  | crash
  /-- The next operation of `rotate` fails, or its request is not answered in time. -/
  | fails (error : AgentEnrollmentError)
  /-- The next operation of `rotate` on its files. -/
  | advance
  /-- `create_pending` up to its file. -/
  | draw (pending : PendingEnrollment)
  /-- The removal of a journal whose rotation is complete; the generation of the TLS
  configuration, if there is one. -/
  | complete (generation : Option Nat)
  /-- `exchange` up to the response. -/
  | send
  /-- The response is read, and an issued certificate is accepted by `AgentTlsConfig` or not. -/
  | receive (accepted : Bool)
  /-- The server looks up the request; `refreshed` is the outcome of
  `refresh_from_repository`, in this and the next two actions. -/
  | preflight (exchange : Nat) (nowUnix : Nat) (serverCaPem : List UInt8) (refreshed : Bool)
  /-- The server signs a certificate and commits it. -/
  | sign (exchange : Nat) (certificatePem : List UInt8) (fingerprint : CertificateFingerprint)
      (notAfterUnix activationDeadlineUnix nowUnix : Nat) (serverCaPem : List UInt8)
      (refreshed : Bool)
  | activate (exchange : Nat) (nowUnix : Nat) (refreshed : Bool)
  /-- The server fails, and answers with `Internal`. -/
  | serverFails (exchange : Nat)
  /-- The request or its connection is lost. -/
  | drop (exchange : Nat)
  /-- An operation that is not made for this Agent, or by an operator. -/
  | other (op : Op)
deriving DecidableEq

def AgentEnrollmentError.isRejection : AgentEnrollmentError → Bool
  | .rejected _ => true
  | _ => false

namespace Rotation

variable (sha256 : Hash)

/-- `enrollment_token_hash` -/
def tokenHash (token : EnrollmentToken) : TokenHash := sha256 token.bytes

/-- An Agent that was provisioned with a token file. -/
def start (db : Db) (tokenFile : List UInt8) : Rotation where
  db
  files := ⟨some tokenFile, none, none, none, none, none⟩
  phase := .idle
  exchanges := []
  nextExchange := 0
  ended := none
  bootstrap := (readToken tokenFile).toOption
  drawn := []
  activated := false
  late := false

def finish (s : Rotation) (result : Except AgentEnrollmentError Nat) : Rotation :=
  { s with phase := .idle, ended := some result }

/-- The random values have not been used before. -/
def fresh (s : Rotation) (pending : PendingEnrollment) : Bool :=
  (s.drawn.all fun old => old.requestId ≠ pending.requestId ∧
      tokenHash sha256 old.nextToken ≠ tokenHash sha256 pending.nextToken) &&
    (s.bootstrap.all fun token =>
      tokenHash sha256 token ≠ tokenHash sha256 pending.nextToken) &&
    (s.db.credentials.rows.all fun row => row.requestId ≠ pending.requestId ∧
      row.renewalTokenHash ≠ tokenHash sha256 pending.nextToken) &&
    s.db.tokens.rows.all fun token => token.tokenHash ≠ tokenHash sha256 pending.nextToken

/-- The operation does not use the random values of the Agent. -/
def foreign (s : Rotation) : Op → Bool
  | .createBootstrapToken hash _ _ _ =>
    s.drawn.all fun old => tokenHash sha256 old.nextToken ≠ hash
  | .commitIssuance candidate _ =>
    s.drawn.all fun old => old.requestId ≠ candidate.requestId ∧
      tokenHash sha256 old.nextToken ≠ candidate.nextTokenHash ∧
      tokenHash sha256 old.nextToken ≠ candidate.presentedTokenHash
  | .activate requestId _ _ _ => s.drawn.all fun old => old.requestId ≠ requestId
  | _ => true

/-- No certificate of the repository has the fingerprint. -/
def unsigned (s : Rotation) (fingerprint : CertificateFingerprint) : Bool :=
  (s.db.credentials.rows.all fun row => row.fingerprint ≠ fingerprint) &&
    match loadSnapshot sha256 s.db with
    | .ok current => current.snapshot.grants.all fun grant => grant.certificate ≠ fingerprint
    | .error _ => true

/-! ## The Agent -/

/-- `if path.exists()` in `replace_file`: the file is removed in one step and the new one
renamed in the next. -/
def advance (s : Rotation) : Option Rotation :=
  match s.phase with
  | .reading =>
    match s.files.token with
    | none => some (s.finish (.error .storage))
    | some file =>
      match readToken file with
      | .error error => some (s.finish (.error error))
      | .ok token => some { s with phase := .loading token }
  | .loading token =>
    match s.files.pending with
    | none => some { s with phase := .creating token }
    | some file =>
      match decodePending file with
      | .error error => some (s.finish (.error error))
      | .ok pending => some { s with phase := .ready token pending }
  | .journaling token pending =>
    some { s with
      files := { s.files with pending := some (encodePending pending) }
      phase := .ready token pending }
  | .ready token pending =>
    if token = pending.nextToken then some { s with phase := .completing } else none
  | .replacing pending =>
    if s.files.pending.isSome then some { s with files := { s.files with pending := none } }
    else
      some ({ s with
        files := { s.files with pending := some (encodePending pending) } }.finish
          (.error (.rejected .requestExpired)))
  | .publishing pending issued file =>
    if s.files.has file then some { s with files := s.files.remove file }
    else
      some { s with
        files := s.files.put sha256 pending issued file
        phase := match file.next with
          | some file => .publishing pending issued file
          | none => .reloading pending issued }
  | .storing pending issued =>
    if s.files.token.isSome then some { s with files := { s.files with token := none } }
    else
      some { s with
        files := { s.files with token := some (tokenText pending.nextToken) }
        phase := .clearing pending issued }
  | .clearing _ issued =>
    if s.files.pending.isSome then
      some ({ s with files := { s.files with pending := none } }.finish
        (.ok issued.generation.value))
    else some (s.finish (.error .storage))
  | _ => none

def draw (s : Rotation) (pending : PendingEnrollment) : Option Rotation :=
  if s.fresh sha256 pending ∧ pending.Fits then
    match s.phase with
    | .creating token =>
      some { s with drawn := pending :: s.drawn, phase := .journaling token pending }
    | .expired => some { s with drawn := pending :: s.drawn, phase := .replacing pending }
    | _ => none
  else none

def complete (s : Rotation) (generation : Option Nat) : Option Rotation :=
  match s.phase with
  | .completing =>
    if s.files.pending.isSome then
      some ({ s with files := { s.files with pending := none } }.finish (.ok (generation.getD 1)))
    else some (s.finish (.error .storage))
  | _ => none

/-- A request on a connection of its own. -/
def request (s : Rotation) (request : EnrollmentRequest) (phase : RotatePhase) : Rotation :=
  { s with
    exchanges := s.exchanges ++ [⟨s.nextExchange, request, false⟩]
    nextExchange := s.nextExchange + 1
    phase }

def send (config : AgentEnrollmentConfig) (s : Rotation) : Option Rotation :=
  match s.phase with
  | .ready token pending =>
    if token = pending.nextToken then none
    else
      some (s.request (.enroll pending.requestId token pending.nextToken config.agentId
        config.tunnelId pending.csrDer) (.enrolling token pending s.nextExchange none))
  | .reloading pending issued =>
    some (s.request (.activate issued.requestId pending.nextToken issued.fingerprint)
      (.activating pending issued s.nextExchange none))
  | _ => none

/-- `issue` after the response, the checks of the certificate, and the checks of
`publish_agent_credential_bundle`. -/
def receiveIssued (fingerprintOf : List UInt8 → Option CertificateFingerprint) (s : Rotation)
    (pending : PendingEnrollment) (accepted : Bool) : EnrollmentResponse → Rotation
  | .issued issued =>
    if issued.requestId ≠ pending.requestId then s.finish (.error .unexpectedResponse)
    else if fingerprintOf issued.certificatePem ≠ some issued.fingerprint then
      s.finish (.error .issuedFingerprint)
    else if !accepted then s.finish (.error .issuedCredential)
    else if issued.serverCaPem.isEmpty || issued.certificatePem.isEmpty ||
        pending.privateKeyPem.isEmpty then
      s.finish (.error (.publish .invalidMaterial))
    else { s with phase := .publishing pending issued .serverCa }
  | .error .requestExpired => { s with phase := .expired }
  | .error code => s.finish (.error (.rejected code))
  | .activated _ => s.finish (.error .unexpectedResponse)

def receiveActivated (s : Rotation) (pending : PendingEnrollment) (issued : IssuedEnrollment) :
    EnrollmentResponse → Rotation
  | .activated _ => { s with phase := .storing pending issued }
  | .error .requestExpired => { s with phase := .expired }
  | .error code => s.finish (.error (.rejected code))
  | .issued _ => s.finish (.error .unexpectedResponse)

def receive (fingerprintOf : List UInt8 → Option CertificateFingerprint) (s : Rotation)
    (accepted : Bool) : Option Rotation :=
  match s.phase with
  | .enrolling _ pending _ (some response) =>
    some (s.receiveIssued fingerprintOf pending accepted response)
  | .activating pending issued _ (some response) =>
    some (s.receiveActivated pending issued response)
  | _ => none

/-! ## The server -/

def exchange? (s : Rotation) (id : Nat) : Option Exchange := s.exchanges.find? (·.id = id)

def answer (s : Rotation) (id : Nat) (response : EnrollmentResponse) : Rotation :=
  { s with
    exchanges := s.exchanges.filter (·.id ≠ id)
    phase := s.phase.answered id response }

def issuanceRequest (requestId : EnrollmentRequestId) (token nextRenewalToken : EnrollmentToken)
    (agentId : AgentId) (tunnelId : TunnelId) (csrDer : List UInt8) : IssuanceRequest :=
  ⟨requestId, tokenHash sha256 token, tokenHash sha256 nextRenewalToken, agentId, tunnelId,
    sha256 csrDer⟩

/-- The last lines of the handler of `Enroll`. -/
def issuedResponse (requestId : EnrollmentRequestId) (serverCaPem : List UInt8) (refreshed : Bool)
    (durable : DurableIssuance) : EnrollmentResponse :=
  if refreshed then
    .issued ⟨requestId, durable.generation, durable.notAfterUnix, durable.certificatePem,
      serverCaPem, durable.fingerprint⟩
  else .error .internal

def preflight (s : Rotation) (id : Nat) (nowUnix : Nat) (serverCaPem : List UInt8)
    (refreshed : Bool) : Option Rotation :=
  match s.exchange? id with
  | some ⟨_, .enroll requestId token nextRenewalToken agentId tunnelId csrDer, false⟩ =>
    match preflightIssuance s.db (issuanceRequest sha256 requestId token nextRenewalToken agentId
      tunnelId csrDer) nowUnix with
    | .error error => some (s.answer id (.error (repositoryErrorCode error)))
    | .ok (some durable) =>
      some (s.answer id (issuedResponse requestId serverCaPem refreshed durable))
    | .ok none =>
      some { s with
        exchanges := s.exchanges.map fun exchange =>
          if exchange.id = id then { exchange with preflighted := true } else exchange }
  | _ => none

def sign (s : Rotation) (id : Nat) (certificatePem : List UInt8)
    (fingerprint : CertificateFingerprint) (notAfterUnix activationDeadlineUnix nowUnix : Nat)
    (serverCaPem : List UInt8) (refreshed : Bool) : Option Rotation :=
  match s.exchange? id with
  | some ⟨_, .enroll requestId token nextRenewalToken agentId tunnelId csrDer, true⟩ =>
    if s.unsigned sha256 fingerprint then
      let candidate : IssuanceCandidate :=
        { toIssuanceRequest := issuanceRequest sha256 requestId token nextRenewalToken agentId
            tunnelId csrDer
          certificatePem, fingerprint, notAfterUnix, activationDeadlineUnix }
      match commitIssuance sha256 s.db candidate nowUnix with
      | (.error error, db) => some ({ s with db }.answer id (.error (repositoryErrorCode error)))
      | (.ok durable, db) =>
        some ({ s with db }.answer id (issuedResponse requestId serverCaPem refreshed durable))
    else none
  | _ => none

def activate (s : Rotation) (id : Nat) (nowUnix : Nat) (refreshed : Bool) : Option Rotation :=
  match s.exchange? id with
  | some ⟨_, .activate requestId renewalToken fingerprint, _⟩ =>
    match Enrollment.activate sha256 s.db requestId (tokenHash sha256 renewalToken) fingerprint
      nowUnix with
    | (.error error, db) =>
      let code :=
        if error = .requestExpired ∧ !refreshed then .internal else repositoryErrorCode error
      some ({ s with db }.answer id (.error code))
    | (.ok version, db) =>
      some ({ s with db, activated := true }.answer id
        (if refreshed then .activated version else .error .internal))
  | _ => none

def step (fingerprintOf : List UInt8 → Option CertificateFingerprint)
    (config : AgentEnrollmentConfig) (s : Rotation) : RotationAction → Option Rotation
  | .rotate =>
    if s.phase = .idle then some { s with phase := .reading, ended := none, late := s.activated }
    else none
  | .crash => some { s with phase := .idle, ended := none }
  | .fails error =>
    if s.phase = .idle ∨ error.isRejection then none else some (s.finish (.error error))
  | .advance => s.advance sha256
  | .draw pending => s.draw sha256 pending
  | .complete generation => s.complete generation
  | .send => s.send config
  | .receive accepted => s.receive fingerprintOf accepted
  | .preflight id nowUnix serverCaPem refreshed =>
    s.preflight sha256 id nowUnix serverCaPem refreshed
  | .sign id certificatePem fingerprint notAfterUnix activationDeadlineUnix nowUnix serverCaPem
      refreshed =>
    s.sign sha256 id certificatePem fingerprint notAfterUnix activationDeadlineUnix nowUnix
      serverCaPem refreshed
  | .activate id nowUnix refreshed => s.activate sha256 id nowUnix refreshed
  | .serverFails id =>
    if (s.exchange? id).isSome then some (s.answer id (.error .internal)) else none
  | .drop id => some { s with exchanges := s.exchanges.filter (·.id ≠ id) }
  | .other op =>
    if s.foreign sha256 op then some { s with db := (run sha256 s.db op).2 } else none

end Rotation

end TunnelProxy.Agent
