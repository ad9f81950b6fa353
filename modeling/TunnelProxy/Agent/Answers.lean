import TunnelProxy.Agent.Ledger

/-!
# What the server answers to an Agent

A call of `rotate` sends the request of its journal with the token of its file. When both
agree with the repository, the answer tells the state of the request's row, and after the
first activation it is none that would end the rotation for good.

* `Answered` — what a response tells about the row of the request
* `Asking.preflight`, `Asking.commit` — the two places where the server answers `Enroll`
-/

namespace TunnelProxy.Agent

open Common Control Control.Enrollment Rotation

variable {sha256 : Hash} {config : AgentEnrollmentConfig} {drawn : List PendingEnrollment}
  {db db' : Db} {token : EnrollmentToken} {pending : PendingEnrollment} {activated late : Bool}
  {nowUnix : Nat} {row : Credential}

/-- The codes that a new call does not help against. -/
def EnrollmentErrorCode.isTerminal : EnrollmentErrorCode → Bool
  | .unauthorized | .tokenExpired | .identityMismatch | .conflict | .credentialRevoked => true
  | _ => false

/-! ## Answers -/

/-- The certificate is the one of the request's row. -/
def Certified (db : Db) (pending : PendingEnrollment) (enrollment : IssuedEnrollment) : Prop :=
  ∃ issued ∈ db.issued, issued.requestId = pending.requestId ∧
    issued.fingerprint = enrollment.fingerprint ∧
    issued.certificatePem = enrollment.certificatePem

/-- What a response tells about the row of the request. -/
def Answered (db : Db) (late : Bool) (pending : PendingEnrollment) : EnrollmentResponse → Prop
  | .issued enrollment => Certified db pending enrollment
  | .activated _ => pending.Has db .active
  | .error code => (late = true → code.isTerminal = false) ∧
      (code = .requestExpired → pending.Has db .expired)

theorem Answered.internal : Answered db late pending (.error .internal) :=
  ⟨fun _ => rfl, nofun⟩

theorem repositoryErrorCode_internal {error : EnrollmentRepositoryError}
    (h : error.isInternal = true) : repositoryErrorCode error = .internal := by
  cases error <;> first | rfl | cases h

/-- The token of the request is rejected, which does not happen to a late call. -/
theorem Answered.unauthenticated {tokenHash : TokenHash} {error : EnrollmentRepositoryError}
    (hLate : late = true → ∃ kind, authenticateToken db tokenHash config.agentId config.tunnelId
      nowUnix = .ok kind)
    (h : authenticateToken db tokenHash config.agentId config.tunnelId nowUnix = .error error) :
    Answered db late pending (.error (repositoryErrorCode error)) := by
  refine ⟨fun hIs => ?_, fun hCode => ?_⟩
  · obtain ⟨_, hOk⟩ := hLate hIs
    rw [h] at hOk
    cases hOk
  · obtain rfl : error = .requestExpired := by cases error <;> first | rfl | cases hCode
    unfold authenticateToken at h
    repeat' split at h
    all_goals cases h

/-- The certificate is the one of the request's row, and has its grant. -/
def Covers (db : Db) (pending : PendingEnrollment) (pem : List UInt8)
    (fingerprint : CertificateFingerprint) : Prop :=
  ∃ row ∈ db.credentials.rows, row.requestId = pending.requestId ∧ row.state.Live ∧
    row.certificatePem = pem ∧ row.fingerprint = fingerprint

/-- What a response tells at the moment when it is given. -/
structure Truthful (db : Db) (late : Bool) (pending : PendingEnrollment)
    (response : EnrollmentResponse) : Prop where
  answered : Answered db late pending response
  covers : ∀ issued, response = .issued issued →
    Covers db pending issued.certificatePem issued.fingerprint

theorem Truthful.error {code : EnrollmentErrorCode} (h : Answered db late pending (.error code)) :
    Truthful db late pending (.error code) :=
  ⟨h, nofun⟩

theorem Truthful.issued {durable : DurableIssuance} {serverCaPem : List UInt8} {refreshed : Bool}
    (h : Covers db pending durable.certificatePem durable.fingerprint) :
    Truthful db late pending
      (issuedResponse pending.requestId serverCaPem refreshed durable) := by
  unfold issuedResponse
  split_ifs
  · refine ⟨?_, fun issued hIssued => ?_⟩
    · obtain ⟨row, hRow, hId, -, hPem, hFingerprint⟩ := h
      exact ⟨row.toIssuedCredential, mem_issued.mpr ⟨row, hRow, rfl⟩, hId, hFingerprint, hPem⟩
    · cases hIssued
      exact h
  · exact .error .internal

/-- What the outcome of a request tells about its row. -/
def Reports (db : Db) (late : Bool) (pending : PendingEnrollment) : Outcome DurableIssuance → Prop
  | .error error => Answered db late pending (.error (repositoryErrorCode error))
  | .ok durable => Covers db pending durable.certificatePem durable.fingerprint

/-- The request that `issue` of the Agent sends, as the repository sees it. -/
abbrev enrollmentOf (sha256 : Hash) (config : AgentEnrollmentConfig) (token : EnrollmentToken)
    (pending : PendingEnrollment) : IssuanceRequest :=
  issuanceRequest sha256 pending.requestId token pending.nextToken config.agentId config.tunnelId
    pending.csrDer

/-- A call that sends the request of its journal with the token of its file. -/
structure Asking (sha256 : Hash) (config : AgentEnrollmentConfig)
    (drawn : List PendingEnrollment) (db : Db) (activated late : Bool) (token : EnrollmentToken)
    (pending : PendingEnrollment) : Prop where
  ledger : Ledger sha256 config drawn db
  agrees : Agrees sha256 drawn db (some token) (some pending) activated
  late : late = true → activated = true
  next : token ≠ pending.nextToken

section

variable (h : Asking sha256 config drawn db activated late token pending) {row : Credential}

include h

/-- A request that has no row is made with the token of the active credential. -/
theorem Asking.authenticates (hAbsent : ¬pending.Issued db) (hLate : late = true) :
    ∃ kind, authenticateToken db (tokenHash sha256 token) config.agentId config.tunnelId nowUnix =
      .ok kind := by
  obtain ⟨q, hq, hActive, hNext | hSame⟩ := h.agrees.current (h.late hLate)
  · cases hNext
    obtain ⟨_, hRow, hId, hState, hRenewal, hAgent, hTunnel⟩ := h.ledger.row_of_has hq hActive
    refine ⟨_, authenticateToken_of_active (fun known hKnown => h.ledger.tokens known hKnown q hq)
      hRow hState hRenewal hAgent hTunnel fun other hOther hHash => ?_⟩
    have hOtherId := h.ledger.renewal _ (mem_issued.mpr ⟨other, hOther, rfl⟩) q hq hHash
    exact Table.eq_of_clash hOther hRow (.inr (hOtherId.trans hId.symm))
  · cases hSame
    exact absurd hActive.issued hAbsent

/-- A retry fails only because the request has expired. -/
theorem Asking.retry (hRow : row ∈ db.credentials.rows) (hId : row.requestId = pending.requestId) :
    Reports db late pending (retry row (enrollmentOf sha256 config token pending)) := by
  have hIssued := mem_issued.mpr ⟨row, hRow, rfl⟩
  obtain ⟨hRenewal, hCsr, hAgent, hTunnel⟩ :=
    h.ledger.columns _ hIssued pending (h.agrees.mem pending rfl) hId
  rw [retry_state ⟨h.agrees.auth pending token rfl rfl h.next _ hIssued hId, hRenewal, hAgent,
    hTunnel, hCsr⟩]
  have hHas : pending.Has db row.state := ⟨row, hRow, hId, rfl⟩
  cases hState : row.state with
  | pending => exact ⟨row, hRow, hId, .inl hState, rfl, rfl⟩
  | active => exact ⟨row, hRow, hId, .inr hState, rfl, rfl⟩
  | expired => exact ⟨fun _ => rfl, fun _ => hState ▸ hHas⟩
  | revoked =>
    refine ⟨fun hLate => ?_, nofun⟩
    exact absurd (hState ▸ hHas) (h.agrees.unrevoked pending rfl (h.late hLate))
  | retired => exact absurd (hState ▸ hHas) (h.agrees.unretired pending rfl)

/-- A preflight that finds nothing wrong with a request without a row reports nothing. -/
theorem Asking.preflight (outcome : Outcome DurableIssuance)
    (hResult : preflightIssuance db (enrollmentOf sha256 config token pending) nowUnix =
      outcome.map some) : Reports db late pending outcome := by
  by_cases hIssued : pending.Issued db
  · obtain ⟨_, hMem, hId⟩ := hIssued
    obtain ⟨row, hRow, rfl⟩ := mem_issued.mp hMem
    rw [preflightIssuance_of_mem hRow (h.ledger.booked.notAfter _ hMem) hId.symm] at hResult
    have hRetry := h.retry hRow hId
    cases hSame : Enrollment.retry row (enrollmentOf sha256 config token pending) with
    | error | ok =>
      rw [hSame] at hResult hRetry
      cases outcome <;> cases hResult
      exact hRetry
  · have hNone : loadIssuance db pending.requestId = .ok none := by
      unfold loadIssuance
      rw [List.find?_eq_none.mpr]
      intro row hRow hId
      exact hIssued ⟨_, mem_issued.mpr ⟨row, hRow, rfl⟩, by simpa using hId⟩
    unfold preflightIssuance at hResult
    rw [show (enrollmentOf sha256 config token pending).requestId = pending.requestId from rfl,
      hNone, ok_bind] at hResult
    cases hAuth : authenticateToken db (tokenHash sha256 token) config.agentId config.tunnelId
        nowUnix with
    | error =>
      dsimp only [enrollmentOf, issuanceRequest] at hResult
      rw [hAuth] at hResult
      cases outcome <;> cases hResult
      exact .unauthenticated (h.authenticates hIssued) hAuth
    | ok =>
      dsimp only [enrollmentOf, issuanceRequest] at hResult
      rw [hAuth] at hResult
      cases outcome <;> cases hResult

theorem Asking.commit {candidate : IssuanceCandidate} {outcome : Outcome DurableIssuance}
    (hCandidate : candidate.toIssuanceRequest = enrollmentOf sha256 config token pending)
    (hUnsigned : ∀ current, loadSnapshot sha256 db = .ok current →
      ∀ grant ∈ current.snapshot.grants, grant.certificate ≠ candidate.fingerprint)
    (hResult : commitIssuance sha256 db candidate nowUnix = (outcome, db')) :
    Reports db' late pending outcome := by
  have hRequestId : candidate.requestId = pending.requestId :=
    congrArg IssuanceRequest.requestId hCandidate
  by_cases hIssued : pending.Issued db
  · obtain ⟨_, hMem, hId⟩ := hIssued
    obtain ⟨_, hRow, rfl⟩ := mem_issued.mp hMem
    rw [commitIssuance_of_mem hRow (h.ledger.booked.notAfter _ hMem) (hRequestId.trans hId.symm),
      hCandidate] at hResult
    cases hResult
    split_ifs
    · exact h.retry hRow hId
    · exact .internal
  · have hNew : ∀ row ∈ db.credentials.rows, row.requestId ≠ candidate.requestId :=
      fun row hRow hId =>
        hIssued ⟨_, mem_issued.mpr ⟨row, hRow, rfl⟩, hId.trans hRequestId⟩
    have hCases : (∃ error, commitIssuance sha256 db candidate nowUnix = (.error error, db)) ∨ _ :=
      commitIssuance_new hNew
    rcases hCases with ⟨_, hFailed⟩ | ⟨_, _, _, _, -, -, hIssues, hDone⟩
    · cases hFailed.symm.trans hResult
      rcases commitIssuance_failed hNew hUnsigned (congrArg Prod.fst hFailed) with
        hAuth | hInternal
      · rw [hCandidate] at hAuth
        exact .unauthenticated (h.authenticates hIssued) hAuth
      · rw [Reports, repositoryErrorCode_internal hInternal]
        exact .internal
    · cases hDone.symm.trans hResult
      exact ⟨_, hIssues.mem_rows.mpr (.inr rfl), hRequestId, .inl rfl, rfl, rfl⟩

end

theorem PendingEnrollment.Has.of_inState {state : CredentialState} (h : db.InState row state)
    (hId : row.requestId = pending.requestId) : pending.Has db state := by
  obtain ⟨row', hRow', hIssued, hState⟩ := h
  refine ⟨row', hRow', ?_, hState⟩
  rw [hIssued]
  exact hId

/-- The answer to an activation of the request in the journal; the expiry is reported only
when the server could pass it on. -/
theorem Answered.activate {token? : Option EnrollmentToken} {result : Outcome SnapshotVersion}
    (refreshed : Bool) (hAgrees : Agrees sha256 drawn db token? (some pending) activated)
    (hLate : late = true → activated = true) (hRow : row ∈ db.credentials.rows)
    (hId : row.requestId = pending.requestId) (h : Enrollment.activate sha256 db row.requestId
      row.renewalTokenHash row.fingerprint nowUnix = (result, db')) :
    Answered db' late pending (match result with
      | .ok version => .activated version
      | .error error => .error (if error = .requestExpired ∧ !refreshed then .internal
          else repositoryErrorCode error)) := by
  have hAnswer := activate_answers hRow h
  have hHas : pending.Has db row.state := ⟨row, hRow, hId, rfl⟩
  cases result with
  | ok => exact .of_inState hAnswer hId
  | error =>
    dsimp only
    split_ifs
    · exact .internal
    rcases hAnswer with hInternal | ⟨rfl, hExpired⟩ | ⟨rfl, hState⟩ | ⟨rfl, hState⟩
    · rw [repositoryErrorCode_internal hInternal]
      exact .internal
    · exact ⟨fun _ => rfl, fun _ => .of_inState hExpired hId⟩
    · refine ⟨fun hIs => ?_, nofun⟩
      exact absurd (hState ▸ hHas) (hAgrees.unrevoked pending rfl (hLate hIs))
    · exact absurd (hState ▸ hHas) (hAgrees.unretired pending rfl)

end TunnelProxy.Agent
