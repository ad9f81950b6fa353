import TunnelProxy.Lib.Transition
import TunnelProxy.Control.SnapshotStore

/-!
# The enrollment repository

`EnrollmentRepository`: bootstrap tokens, credentials and the durable snapshot in one
database, and the operations on them. Each operation is one transaction, so that a run
of the repository, whatever processes and connections take part, is a sequence of
operations. Columns are modelled decoded; the clock is an argument of each operation, as
in the source. Not modelled: the failures of the database itself (an operation that fails
in this way is rolled back like any other) and the migration of older tables.

An `UPDATE` is `Table.updateWhere`, an `INSERT` is `Table.insert`, and `transact` rolls an
operation back when it returns an error before its commit.
-/

namespace TunnelProxy.Control.Enrollment

open Common

/-! ## Rows -/

abbrev TokenHash := FixedBytes 32

abbrev EnrollmentRequestId := FixedBytes 16

inductive CredentialState where
  | pending
  | active
  | retired
  | revoked
  | expired
deriving DecidableEq, Repr

/-- A row of `enrollment_bootstrap_tokens`. -/
structure BootstrapToken where
  tokenHash : TokenHash
  agentId : AgentId
  tunnelId : TunnelId
  expiresAt : Int
  consumed : Bool
  revoked : Bool
deriving DecidableEq

/-- The columns of `agent_credentials` that are written once. -/
structure IssuedCredential where
  fingerprint : CertificateFingerprint
  requestId : EnrollmentRequestId
  agentId : AgentId
  tunnelId : TunnelId
  csrDigest : Digest
  authTokenHash : TokenHash
  renewalTokenHash : TokenHash
  certificatePem : List UInt8
  notAfter : Int
  generation : SnapshotVersion
  previousFingerprint : Option CertificateFingerprint
  activationDeadline : Int
deriving DecidableEq

/-- A row of `agent_credentials`. -/
structure Credential extends IssuedCredential where
  state : CredentialState
  terminalAt : Option Int
deriving DecidableEq

/-- The primary key of the tokens. -/
abbrev BootstrapToken.Clash (a b : BootstrapToken) : Prop := a.tokenHash = b.tokenHash

/-- The primary key and the unique column of the credentials. -/
abbrev Credential.Clash (a b : Credential) : Prop :=
  a.fingerprint = b.fingerprint ∨ a.requestId = b.requestId

instance : Std.Symm BootstrapToken.Clash := ⟨fun _ _ h => h.symm⟩

instance : Std.Symm Credential.Clash := ⟨fun _ _ h => h.imp Eq.symm Eq.symm⟩

structure Db where
  snapshot : SnapshotTables
  tokens : Table BootstrapToken BootstrapToken.Clash
  credentials : Table Credential Credential.Clash
deriving DecidableEq

/-! ## Arguments and results -/

/-- What identifies a request: the fields that a retry has to repeat. -/
structure IssuanceRequest where
  requestId : EnrollmentRequestId
  presentedTokenHash : TokenHash
  nextTokenHash : TokenHash
  agentId : AgentId
  tunnelId : TunnelId
  csrDigest : Digest
deriving DecidableEq

structure IssuanceCandidate extends IssuanceRequest where
  certificatePem : List UInt8
  fingerprint : CertificateFingerprint
  notAfterUnix : Nat
  activationDeadlineUnix : Nat
deriving DecidableEq

structure DurableIssuance where
  generation : SnapshotVersion
  certificatePem : List UInt8
  fingerprint : CertificateFingerprint
  notAfterUnix : Nat
deriving DecidableEq

structure CredentialMutationOutcome where
  snapshotVersion : SnapshotVersion
  affectedCredentials : Nat
  snapshotChanged : Bool
deriving DecidableEq

inductive PresentedTokenKind where
  | bootstrap
  | renewal (fingerprint : CertificateFingerprint)
deriving DecidableEq

inductive EnrollmentRepositoryError where
  | storage
  | uninitialized
  | unauthorized
  | tokenExpired
  | credentialRevoked
  | requestExpired
  | identityMismatch
  | conflict
  | corrupt
  | invalidTime
  | versionExhausted
deriving DecidableEq, Repr

/-- A fallible read or a transaction body. -/
abbrev Outcome := Except EnrollmentRepositoryError

/-- `i64::try_from` of a time. -/
def toI64 (unix : Nat) : Outcome Int :=
  if unix < 2 ^ 63 then .ok unix else .error .invalidTime

def nextVersion (current : SnapshotVersion) : Outcome SnapshotVersion :=
  match SnapshotVersion.new (current.value + 1) with
  | some version => .ok version
  | none => .error .versionExhausted

/-! ## The snapshot of the database -/

variable (sha256 : Hash)

def loadSnapshot (db : Db) : Outcome VersionedAuthorizationSnapshot :=
  match db.snapshot.loadLatest sha256 with
  | .error _ => .error .storage
  | .ok none => .error .uninitialized
  | .ok (some current) => .ok current

def replaceSnapshot (db : Db) (snapshot : VersionedAuthorizationSnapshot) : Outcome Db :=
  match snapshotDigest sha256 snapshot.snapshot with
  | .error _ => .error .corrupt
  | .ok digest =>
    .ok { db with
      snapshot := db.snapshot.write snapshot.version digest snapshot.snapshot.grants }

/-- Build a snapshot from edited grants and replace the durable one. -/
def writeGrants (db : Db) (version : SnapshotVersion) (grants : List AgentGrant) : Outcome Db :=
  match AuthorizationSnapshot.new grants with
  | .error _ => .error .corrupt
  | .ok snapshot => replaceSnapshot sha256 db ⟨version, snapshot⟩

/-- Replace the snapshot by edited grants if the edit changed them: the version that is
current afterwards, and whether it is a new one. -/
def updateGrants (db : Db) (current : VersionedAuthorizationSnapshot)
    (grants : List AgentGrant) : Outcome (SnapshotVersion × Bool × Db) :=
  if grants ≠ current.snapshot.grants then do
    let version ← nextVersion current.version
    let db ← writeGrants sha256 db version grants
    return (version, true, db)
  else return (current.version, false, db)

/-! ## Tokens -/

def createBootstrapToken (db : Db) (tokenHash : TokenHash) (agentId : AgentId)
    (tunnelId : TunnelId) (expiresAtUnix : Nat) : Outcome Unit × Db :=
  transact db do
    let expires ← toI64 expiresAtUnix
    match db.tokens.insert ⟨tokenHash, agentId, tunnelId, expires, false, false⟩ with
    | none => throw .conflict
    | some tokens => return (.ok (), { db with tokens })

/-- The row `WHERE renewal_token_hash = ?1 AND state IN (2, 4) ORDER BY state DESC LIMIT 1`;
rows of one state are taken in the order of the table. -/
def findRenewal (db : Db) (tokenHash : TokenHash) : Option Credential :=
  let rows := db.credentials.rows.filter (·.renewalTokenHash = tokenHash)
  (rows.find? (·.state = .revoked)).or (rows.find? (·.state = .active))

def authenticateToken (db : Db) (tokenHash : TokenHash) (agentId : AgentId)
    (tunnelId : TunnelId) (nowUnix : Nat) : Outcome PresentedTokenKind :=
  match db.tokens.rows.find? (·.tokenHash = tokenHash) with
  | some token =>
    if token.agentId ≠ agentId ∨ token.tunnelId ≠ tunnelId then .error .identityMismatch
    else if token.revoked then .error .credentialRevoked
    else if token.consumed then .error .unauthorized
    else if token.expiresAt < 0 ∨ token.expiresAt.toNat ≤ nowUnix then .error .tokenExpired
    else .ok .bootstrap
  | none =>
    match findRenewal db tokenHash with
    | none => .error .unauthorized
    | some credential =>
      if credential.agentId ≠ agentId ∨ credential.tunnelId ≠ tunnelId then
        .error .identityMismatch
      else if credential.state = .revoked then .error .credentialRevoked
      else .ok (.renewal credential.fingerprint)

/-- `validate_token`; what it returns is the identity it was called with. -/
def validateToken (db : Db) (tokenHash : TokenHash) (agentId : AgentId) (tunnelId : TunnelId)
    (nowUnix : Nat) : Outcome (AgentId × TunnelId) := do
  let _ ← authenticateToken db tokenHash agentId tunnelId nowUnix
  return (agentId, tunnelId)

/-! ## Issuance -/

def IssuedCredential.issuance (existing : IssuedCredential) : DurableIssuance where
  generation := existing.generation
  certificatePem := existing.certificatePem
  fingerprint := existing.fingerprint
  notAfterUnix := existing.notAfter.toNat

/-- The row of the request; the source copies the columns it needs. -/
def loadIssuance (db : Db) (requestId : EnrollmentRequestId) : Outcome (Option Credential) :=
  match db.credentials.rows.find? (·.requestId = requestId) with
  | none => .ok none
  | some existing => if existing.notAfter < 0 then .error .corrupt else .ok (some existing)

def verifyIdempotentFields (existing : Credential) (request : IssuanceRequest) : Outcome Unit :=
  if existing.authTokenHash ≠ request.presentedTokenHash
      ∨ existing.renewalTokenHash ≠ request.nextTokenHash
      ∨ existing.agentId ≠ request.agentId
      ∨ existing.tunnelId ≠ request.tunnelId
      ∨ existing.csrDigest ≠ request.csrDigest then .error .conflict
  else .ok ()

def ensureRetryableState : CredentialState → Outcome Unit
  | .pending | .active => .ok ()
  | .revoked => .error .credentialRevoked
  | .expired => .error .requestExpired
  | .retired => .error .conflict

/-- What a call returns for a request that has a row. -/
def retry (existing : Credential) (request : IssuanceRequest) : Outcome DurableIssuance := do
  verifyIdempotentFields existing request
  ensureRetryableState existing.state
  return existing.issuance

/-- Mark a bootstrap token as consumed. -/
def Db.consume (db : Db) (tokenHash : TokenHash) : Db :=
  { db with
    tokens := db.tokens.updateWhere (·.tokenHash = tokenHash)
      (fun token => { token with consumed := true }) fun _ _ => id }

def PresentedTokenKind.previous : PresentedTokenKind → Option CertificateFingerprint
  | .bootstrap => none
  | .renewal fingerprint => some fingerprint

/-- The row that is inserted for a candidate. -/
def IssuanceCandidate.row (candidate : IssuanceCandidate) (notAfter activationDeadline : Int)
    (generation : SnapshotVersion) (previousFingerprint : Option CertificateFingerprint) :
    Credential where
  fingerprint := candidate.fingerprint
  requestId := candidate.requestId
  agentId := candidate.agentId
  tunnelId := candidate.tunnelId
  csrDigest := candidate.csrDigest
  authTokenHash := candidate.presentedTokenHash
  renewalTokenHash := candidate.nextTokenHash
  certificatePem := candidate.certificatePem
  notAfter := notAfter
  generation := generation
  previousFingerprint := previousFingerprint
  activationDeadline := activationDeadline
  state := .pending
  terminalAt := none

/-- `commit_issuance` for a request id without a row. -/
def issue (db : Db) (candidate : IssuanceCandidate) (nowUnix : Nat) :
    Outcome (DurableIssuance × Db) := do
  let kind ← authenticateToken db candidate.presentedTokenHash candidate.agentId
    candidate.tunnelId nowUnix
  let current ← loadSnapshot sha256 db
  let generation ← nextVersion current.version
  let grants := current.snapshot.grants
  if grants.any (·.certificate = candidate.fingerprint) then throw .conflict
  else do
    let db ← writeGrants sha256 db generation (grants ++
      [⟨candidate.fingerprint, candidate.agentId, [⟨candidate.tunnelId, .enabled⟩]⟩])
    let notAfter ← toI64 candidate.notAfterUnix
    let activationDeadline ← toI64 candidate.activationDeadlineUnix
    let row := candidate.row notAfter activationDeadline generation kind.previous
    match db.credentials.insert row with
    | none => throw .storage
    | some credentials =>
      let db := { db with credentials }
      let db := if kind = .bootstrap then db.consume candidate.presentedTokenHash else db
      return (⟨generation, candidate.certificatePem, candidate.fingerprint,
        candidate.notAfterUnix⟩, db)

def commitIssuance (db : Db) (candidate : IssuanceCandidate) (nowUnix : Nat) :
    Outcome DurableIssuance × Db :=
  transact db <|
    if candidate.activationDeadlineUnix ≤ nowUnix
        ∨ candidate.notAfterUnix < candidate.activationDeadlineUnix then throw .invalidTime
    else do
      match ← loadIssuance db candidate.requestId with
      | some existing =>
        let issuance ← retry existing candidate.toIssuanceRequest
        return (.ok issuance, db)
      | none =>
        let (issuance, db) ← issue sha256 db candidate nowUnix
        return (.ok issuance, db)

def preflightIssuance (db : Db) (request : IssuanceRequest) (nowUnix : Nat) :
    Outcome (Option DurableIssuance) := do
  match ← loadIssuance db request.requestId with
  | some existing =>
    let issuance ← retry existing request
    return some issuance
  | none =>
    let _ ← authenticateToken db request.presentedTokenHash request.agentId request.tunnelId
      nowUnix
    return none

/-! ## Activation, revocation and expiry -/

/-- `UPDATE agent_credentials SET state = ?1 WHERE fingerprint = ?2` -/
def Db.setState (db : Db) (fingerprint : CertificateFingerprint) (state : CredentialState) : Db :=
  { db with
    credentials := db.credentials.updateWhere (·.fingerprint = fingerprint)
      (fun row => { row with state }) fun _ _ => id }

/-- `UPDATE agent_credentials SET state = 5, terminal_at = ?1
WHERE fingerprint = ?2 AND state = 1` -/
def Db.expire (db : Db) (terminalAt : Int) (fingerprint : CertificateFingerprint) : Db :=
  { db with
    credentials := db.credentials.updateWhere
      (fun row => row.fingerprint = fingerprint ∧ row.state = .pending)
      (fun row => { row with state := .expired, terminalAt := some terminalAt }) fun _ _ => id }

def expirePendingCredential (db : Db) (fingerprint : CertificateFingerprint) (nowUnix : Nat) :
    Outcome (SnapshotVersion × Db) := do
  let current ← loadSnapshot sha256 db
  let (version, _, db) ← updateGrants sha256 db current
    (current.snapshot.grants.filter (·.certificate ≠ fingerprint))
  let terminalAt ← toI64 nowUnix
  return (version, db.expire terminalAt fingerprint)

/-- `activate` for a pending row before its deadline. -/
def activatePending (db : Db) (row : Credential) : Outcome (SnapshotVersion × Db) := do
  let current ← loadSnapshot sha256 db
  match row.previousFingerprint with
  | some previous =>
    let version ← nextVersion current.version
    let db ← writeGrants sha256 db version
      (current.snapshot.grants.filter (·.certificate ≠ previous))
    return (version, (db.setState previous .retired).setState row.fingerprint .active)
  | none => return (current.version, db.setState row.fingerprint .active)

def activate (db : Db) (requestId : EnrollmentRequestId) (renewalTokenHash : TokenHash)
    (fingerprint : CertificateFingerprint) (nowUnix : Nat) : Outcome SnapshotVersion × Db :=
  transact db <|
    match db.credentials.rows.find? fun row => row.requestId = requestId
        ∧ row.fingerprint = fingerprint ∧ row.renewalTokenHash = renewalTokenHash with
    | none => throw .unauthorized
    | some row =>
      match row.state with
      | .active => do
        let current ← loadSnapshot sha256 db
        return (.ok current.version, db)
      | .revoked => throw .credentialRevoked
      | .expired => throw .requestExpired
      | .retired => throw .conflict
      | .pending =>
        if row.activationDeadline < 0 ∨ row.activationDeadline.toNat ≤ nowUnix then do
          -- the expiry is committed, and the call fails
          let (_, db) ← expirePendingCredential sha256 db fingerprint nowUnix
          return (.error .requestExpired, db)
        else do
          let (version, db) ← activatePending sha256 db row
          return (.ok version, db)

def removeAgentTunnel (grants : List AgentGrant) (agentId : AgentId) (tunnelId : TunnelId) :
    List AgentGrant :=
  grants.filterMap fun grant =>
    let grant :=
      if grant.agentId = agentId then
        { grant with tunnels := grant.tunnels.filter (·.tunnelId ≠ tunnelId) }
      else grant
    if grant.tunnels.isEmpty then none else some grant

/-- The rows that `revoke_agent` updates. -/
def Credential.isLiveOf (row : Credential) (agentId : AgentId) (tunnelId : TunnelId) : Bool :=
  row.agentId = agentId ∧ row.tunnelId = tunnelId ∧ (row.state = .pending ∨ row.state = .active)

def revokeAgent (db : Db) (agentId : AgentId) (tunnelId : TunnelId) (nowUnix : Nat) :
    Outcome CredentialMutationOutcome × Db :=
  transact db do
    let terminalAt ← toI64 nowUnix
    let affected := db.credentials.rows.countP (·.isLiveOf agentId tunnelId)
    let db :=
      { db with
        tokens := db.tokens.updateWhere
          (fun token => token.agentId = agentId ∧ token.tunnelId = tunnelId)
          (fun token => { token with consumed := true, revoked := true }) fun _ _ => id
        credentials := db.credentials.updateWhere (·.isLiveOf agentId tunnelId)
          (fun row => { row with state := .revoked, terminalAt := some terminalAt })
          fun _ _ => id }
    let current ← loadSnapshot sha256 db
    let (version, changed, db) ← updateGrants sha256 db current
      (removeAgentTunnel current.snapshot.grants agentId tunnelId)
    return (.ok ⟨version, affected, changed⟩, db)

/-- The database after the two `UPDATE`s of `revoke_agent`. -/
def marked (db : Db) (agentId : AgentId) (tunnelId : TunnelId) (terminalAt : Int) : Db :=
  { db with
    tokens := db.tokens.updateWhere (fun token =>
      token.agentId = agentId ∧ token.tunnelId = tunnelId)
      (fun token => { token with consumed := true, revoked := true }) fun _ _ => id
    credentials := db.credentials.updateWhere (·.isLiveOf agentId tunnelId)
      (fun row => { row with state := .revoked, terminalAt := some terminalAt }) fun _ _ => id }

def maxReconcileBatch : Nat := 256

/-- `SELECT fingerprint … WHERE state = 1 AND activation_deadline <= ?1 ORDER BY fingerprint
LIMIT ?2` -/
def expiredFingerprints (db : Db) (terminalAt : Int) : List CertificateFingerprint :=
  (((db.credentials.rows.filter fun row =>
      row.state = .pending ∧ row.activationDeadline ≤ terminalAt).map
    (·.fingerprint)).insertionSort fun a b => (compare a b).isLE).take maxReconcileBatch

def reconcileExpired (db : Db) (nowUnix : Nat) : Outcome CredentialMutationOutcome × Db :=
  transact db do
    let terminalAt ← toI64 nowUnix
    let fingerprints := expiredFingerprints db terminalAt
    let current ← loadSnapshot sha256 db
    if fingerprints.isEmpty then return (.ok ⟨current.version, 0, false⟩, db)
    else do
      let (version, changed, db) ← updateGrants sha256 db current
        (current.snapshot.grants.filter (·.certificate ∉ fingerprints))
      let db := fingerprints.foldl (Db.expire · terminalAt) db
      return (.ok ⟨version, fingerprints.length, changed⟩, db)

/-- What `reconcile_expired` makes of one row. -/
def expireRow (terminalAt : Int) (fingerprints : List CertificateFingerprint)
    (row : Credential) : Credential :=
  if row.fingerprint ∈ fingerprints ∧ row.state = .pending then
    { row with state := .expired, terminalAt := some terminalAt }
  else row

/-! ## Runs -/

inductive Op where
  | createBootstrapToken (tokenHash : TokenHash) (agentId : AgentId) (tunnelId : TunnelId)
      (expiresAtUnix : Nat)
  | validateToken (tokenHash : TokenHash) (agentId : AgentId) (tunnelId : TunnelId)
      (nowUnix : Nat)
  | preflightIssuance (request : IssuanceRequest) (nowUnix : Nat)
  | commitIssuance (candidate : IssuanceCandidate) (nowUnix : Nat)
  | activate (requestId : EnrollmentRequestId) (renewalTokenHash : TokenHash)
      (fingerprint : CertificateFingerprint) (nowUnix : Nat)
  | revokeAgent (agentId : AgentId) (tunnelId : TunnelId) (nowUnix : Nat)
  | reconcileExpired (nowUnix : Nat)
deriving DecidableEq

inductive Reply where
  | created
  | validated (agentId : AgentId) (tunnelId : TunnelId)
  | preflight (existing : Option DurableIssuance)
  | issued (issuance : DurableIssuance)
  | activated (version : SnapshotVersion)
  | mutated (outcome : CredentialMutationOutcome)
deriving DecidableEq

/-- What an operation returns, and the database it leaves. -/
def run (db : Db) : Op → Outcome Reply × Db
  | .createBootstrapToken tokenHash agentId tunnelId expiresAtUnix =>
    (createBootstrapToken db tokenHash agentId tunnelId expiresAtUnix).map
      (·.map fun _ => .created) id
  | .validateToken tokenHash agentId tunnelId nowUnix =>
    ((validateToken db tokenHash agentId tunnelId nowUnix).map fun (a, t) => .validated a t, db)
  | .preflightIssuance request nowUnix =>
    ((preflightIssuance db request nowUnix).map .preflight, db)
  | .commitIssuance candidate nowUnix =>
    (commitIssuance sha256 db candidate nowUnix).map (·.map .issued) id
  | .activate requestId renewalTokenHash fingerprint nowUnix =>
    (activate sha256 db requestId renewalTokenHash fingerprint nowUnix).map (·.map .activated) id
  | .revokeAgent agentId tunnelId nowUnix =>
    (revokeAgent sha256 db agentId tunnelId nowUnix).map (·.map .mutated) id
  | .reconcileExpired nowUnix =>
    (reconcileExpired sha256 db nowUnix).map (·.map .mutated) id

/-- One operation of a run; every operation can be called in every state. -/
def step (db : Db) (op : Op) : Option Db := some (run sha256 db op).2

end TunnelProxy.Control.Enrollment
