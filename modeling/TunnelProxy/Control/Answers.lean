import TunnelProxy.Control.Issuance

/-!
# What the repository answers

For a caller who knows the state of a row, what the operations on it return, and what
becomes of the row under operations of others.

* `reached_effect` — every operation on a database that can be reached has an effect, with
  or without a snapshot
* `authenticateToken_of_active` — the renewal token of an active credential is accepted
* `commitIssuance_failed` — a new request fails only for its token, or inside
* `activate_answers` — the answer to an activation tells the state of the row
-/

namespace TunnelProxy.Control.Enrollment

open Std Common List

variable {sha256 : Hash} {db db' : Db} {current current' : VersionedAuthorizationSnapshot} {op : Op}
  {reply : Outcome Reply} {row : Credential} {nowUnix : Nat} {error : EnrollmentRepositoryError}
  {version : SnapshotVersion} {grants : List AgentGrant} {agentId : AgentId} {tokenHash : TokenHash}
  {tunnelId : TunnelId}

/-! ## Effects with and without a snapshot -/

/-- **Every operation that a run can come to has an effect.** -/
theorem reached_effect (h : Reached sha256 db) (op : Op) :
    Reached sha256 (run sha256 db op).2 ∧ ∃ current current', Granted db current ∧
      Effect db current op (run sha256 db op).1 (run sha256 db op).2 current' := by
  refine ⟨(reached_step h rfl).1, ?_⟩
  rcases h with ⟨current, hLoad, hGranted⟩ | ⟨hUnloaded, hEmpty⟩
  · obtain ⟨current', -, hEffect⟩ := run_effect hLoad op
    exact ⟨current, current', hGranted, hEffect⟩
  · -- no row says anything about the snapshot
    let none : VersionedAuthorizationSnapshot := ⟨⟨1, by decide, by decide⟩, ⟨∅⟩⟩
    refine ⟨none, none, ?_, (run_unloaded hUnloaded op).2.2 none⟩
    constructor <;> simp [hEmpty]

/-! ## Answers -/

/-- The errors that the server reports as its own. -/
def EnrollmentRepositoryError.isInternal : EnrollmentRepositoryError → Bool
  | .storage | .uninitialized | .corrupt | .invalidTime | .versionExhausted => true
  | _ => false

theorem loadSnapshot_internal (h : loadSnapshot sha256 db = .error error) : error.isInternal := by
  unfold loadSnapshot at h
  split at h <;> cases h <;> rfl

theorem nextVersion_internal (h : nextVersion version = .error error) : error.isInternal := by
  unfold nextVersion at h
  split at h <;> cases h
  rfl

theorem toI64_internal {unix : Nat} (h : toI64 unix = .error error) : error.isInternal := by
  unfold toI64 at h
  split_ifs at h
  cases h
  rfl

theorem writeGrants_internal (h : writeGrants sha256 db version grants = .error error) :
    error.isInternal := by
  unfold writeGrants replaceSnapshot at h
  split at h
  · cases h
    rfl
  · split at h <;> cases h
    rfl

theorem updateGrants_internal (h : updateGrants sha256 db current grants = .error error) :
    error.isInternal := by
  unfold updateGrants at h
  split_ifs at h
  · rcases bind_eq_error.mp h with hVersion | ⟨_, -, h⟩
    · exact nextVersion_internal hVersion
    rcases bind_eq_error.mp h with hWrite | ⟨_, -, h⟩
    · exact writeGrants_internal hWrite
    · cases h
  · cases h

/-- The token of an active credential is accepted, if the hash is that of no other token
and of no other credential. -/
theorem authenticateToken_of_active
    (hTokens : ∀ token ∈ db.tokens.rows, token.tokenHash ≠ tokenHash)
    (hRow : row ∈ db.credentials.rows) (hActive : row.state = .active)
    (hHash : row.renewalTokenHash = tokenHash) (hAgent : row.agentId = agentId)
    (hTunnel : row.tunnelId = tunnelId)
    (hSole : ∀ other ∈ db.credentials.rows, other.renewalTokenHash = tokenHash → other = row) :
    authenticateToken db tokenHash agentId tunnelId nowUnix = .ok (.renewal row.fingerprint) := by
  have hNone : db.tokens.rows.find? (·.tokenHash = tokenHash) = none :=
    find?_eq_none.mpr (by simpa using hTokens)
  have hMem : row ∈ db.credentials.rows.filter (·.renewalTokenHash = tokenHash) :=
    mem_filter.mpr ⟨hRow, decide_eq_true hHash⟩
  have hOnly : ∀ other ∈ db.credentials.rows.filter (·.renewalTokenHash = tokenHash),
      other = row := by
    intro other hOther
    obtain ⟨hIn, hSame⟩ := mem_filter.mp hOther
    exact hSole other hIn (of_decide_eq_true hSame)
  have hFind : findRenewal db tokenHash = some row := by
    unfold findRenewal
    dsimp only
    have hNoRevoked : (db.credentials.rows.filter (·.renewalTokenHash = tokenHash)).find?
        (·.state = .revoked) = none := by
      refine find?_eq_none.mpr fun other hOther => ?_
      rw [hOnly other hOther, hActive]
      decide
    have hFound : ((db.credentials.rows.filter (·.renewalTokenHash = tokenHash)).find?
        (·.state = .active)).isSome :=
      find?_isSome.mpr ⟨row, hMem, decide_eq_true hActive⟩
    obtain ⟨other, hOther⟩ := Option.isSome_iff_exists.mp hFound
    rw [hNoRevoked, Option.none_or, hOther, hOnly other (mem_of_find?_eq_some hOther)]
  unfold authenticateToken
  rw [hNone, hFind]
  simp only [hAgent, hTunnel, hActive, ne_eq, not_true_eq_false, or_self, if_false, reduceCtorEq]

/-- A new request whose certificate is new fails only for its token, or inside. -/
theorem commitIssuance_failed {candidate : IssuanceCandidate}
    (hNew : ∀ row ∈ db.credentials.rows, row.requestId ≠ candidate.requestId)
    (hUnsigned : ∀ current, loadSnapshot sha256 db = .ok current →
      ∀ grant ∈ current.snapshot.grants, grant.certificate ≠ candidate.fingerprint)
    (h : (commitIssuance sha256 db candidate nowUnix).1 = .error error) :
    authenticateToken db candidate.presentedTokenHash candidate.agentId candidate.tunnelId
      nowUnix = .error error ∨ error.isInternal := by
  have hNone : loadIssuance db candidate.requestId = .ok none := by
    unfold loadIssuance
    rw [find?_eq_none.mpr (by simpa using hNew)]
  have hIssue : issue sha256 db candidate nowUnix = .error error →
      authenticateToken db candidate.presentedTokenHash candidate.agentId candidate.tunnelId
        nowUnix = .error error ∨ error.isInternal := by
    intro h
    rcases bind_eq_error.mp h with hAuth | ⟨_, -, h⟩
    · exact .inl hAuth
    refine .inr ?_
    rcases bind_eq_error.mp h with hLoad | ⟨current, hLoad, h⟩
    · exact loadSnapshot_internal hLoad
    rcases bind_eq_error.mp h with hVersion | ⟨_, -, h⟩
    · exact nextVersion_internal hVersion
    have hAny : current.snapshot.grants.any (·.certificate = candidate.fingerprint) = false := by
      rw [any_eq_false]
      intro grant hGrant
      simpa using hUnsigned current hLoad grant hGrant
    dsimp only at h
    rw [if_neg (by rw [hAny]; decide)] at h
    rcases bind_eq_error.mp h with hWrite | ⟨_, -, h⟩
    · exact writeGrants_internal hWrite
    rcases bind_eq_error.mp h with hNotAfter | ⟨_, -, h⟩
    · exact toI64_internal hNotAfter
    rcases bind_eq_error.mp h with hDeadline | ⟨_, -, h⟩
    · exact toI64_internal hDeadline
    split at h <;> cases h
    rfl
  unfold commitIssuance at h
  split_ifs at h
  · cases h
    exact .inr rfl
  rw [hNone, ok_bind] at h
  cases hResult : issue sha256 db candidate nowUnix with
  | error =>
    rw [hResult] at h
    cases h
    exact hIssue hResult
  | ok =>
    rw [hResult] at h
    cases h

theorem expirePendingCredential_internal {fingerprint : CertificateFingerprint}
    (h : expirePendingCredential sha256 db fingerprint nowUnix = .error error) :
    error.isInternal := by
  rcases bind_eq_error.mp h with hLoad | ⟨_, -, h⟩
  · exact loadSnapshot_internal hLoad
  rcases bind_eq_error.mp h with hGrants | ⟨_, -, h⟩
  · exact updateGrants_internal hGrants
  rcases bind_eq_error.mp h with hTime | ⟨_, -, h⟩
  · exact toI64_internal hTime
  · cases h

theorem activatePending_internal (h : activatePending sha256 db row = .error error) :
    error.isInternal := by
  rcases bind_eq_error.mp h with hLoad | ⟨_, -, h⟩
  · exact loadSnapshot_internal hLoad
  split at h
  · rcases bind_eq_error.mp h with hVersion | ⟨_, -, h⟩
    · exact nextVersion_internal hVersion
    rcases bind_eq_error.mp h with hWrite | ⟨_, -, h⟩
    · exact writeGrants_internal hWrite
    · cases h
  · cases h

/-- The row is there with its issued columns, in the state. -/
def Db.InState (db : Db) (row : Credential) (state : CredentialState) : Prop :=
  ∃ row' ∈ db.credentials.rows, row'.toIssuedCredential = row.toIssuedCredential ∧
    row'.state = state

theorem find_row (hRow : row ∈ db.credentials.rows) :
    (db.credentials.rows.find? fun other => other.requestId = row.requestId
      ∧ other.fingerprint = row.fingerprint ∧ other.renewalTokenHash = row.renewalTokenHash) =
      some row := by
  cases hFind : db.credentials.rows.find? fun other => other.requestId = row.requestId
      ∧ other.fingerprint = row.fingerprint ∧ other.renewalTokenHash = row.renewalTokenHash with
  | none => simpa using find?_eq_none.mp hFind row hRow
  | some found =>
    have hKeys := find?_some hFind
    simp only [decide_eq_true_eq] at hKeys
    rw [eq_of_fingerprint (mem_of_find?_eq_some hFind) hRow hKeys.2.1]

/-- An activation that succeeds leaves the row active. One that fails for another reason
than an internal one tells that the row has expired, or was revoked or retired before. -/
theorem activate_answers {result : Outcome SnapshotVersion} (hRow : row ∈ db.credentials.rows)
    (h : activate sha256 db row.requestId row.renewalTokenHash row.fingerprint nowUnix =
      (result, db')) : match result with
    | .ok _ => db'.InState row .active
    | .error error => error.isInternal ∨ error = .requestExpired ∧ db'.InState row .expired ∨
      error = .credentialRevoked ∧ row.state = .revoked ∨
      error = .conflict ∧ row.state = .retired := by
  unfold activate at h
  rw [find_row hRow] at h
  dsimp only at h
  cases hState : row.state with
  | active =>
    cases hLoad : loadSnapshot sha256 db with
    | error =>
      rw [hState, hLoad] at h
      cases h
      exact .inl (loadSnapshot_internal hLoad)
    | ok =>
      rw [hState, hLoad] at h
      cases h
      exact ⟨row, hRow, rfl, hState⟩
  | revoked =>
    rw [hState] at h
    cases h
    exact .inr (.inr (.inl ⟨rfl, rfl⟩))
  | expired =>
    rw [hState] at h
    cases h
    exact .inr (.inl ⟨rfl, row, hRow, rfl, hState⟩)
  | retired =>
    rw [hState] at h
    cases h
    exact .inr (.inr (.inr ⟨rfl, rfl⟩))
  | pending =>
    rw [hState] at h
    dsimp only at h
    split_ifs at h with hDue
    · cases hExpire : expirePendingCredential sha256 db row.fingerprint nowUnix with
      | error =>
        rw [hExpire] at h
        cases h
        exact .inl (expirePendingCredential_internal hExpire)
      | ok =>
        rw [hExpire] at h
        cases h
        obtain ⟨_, _, -, -, -, hExpires⟩ :=
          expirePendingCredential_eq_ok hExpire hRow hState (by omega)
        refine .inr (.inl ⟨rfl, expireRow nowUnix [row.fingerprint] row, ?_,
          expireRow_issued _ _ _, ?_⟩)
        · rw [hExpires.rows]
          exact mem_map_of_mem hRow
        · rw [expireRow, if_pos ⟨mem_singleton_self _, hState⟩]
    · cases hActivate : activatePending sha256 db row with
      | error =>
        rw [hActivate] at h
        cases h
        exact .inl (activatePending_internal hActivate)
      | ok =>
        rw [hActivate] at h
        cases h
        obtain ⟨_, _, -, -, -, -, hActivates⟩ := activatePending_eq_ok hActivate hRow hState
        refine ⟨activateRow row row, ?_, activateRow_issued _ _, ?_⟩
        · rw [hActivates.rows]
          exact mem_map_of_mem hRow
        · rw [activateRow, if_pos rfl]

end TunnelProxy.Control.Enrollment
