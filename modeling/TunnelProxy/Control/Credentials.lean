import TunnelProxy.Control.EnrollmentSteps

/-!
# Credentials and grants

A credential that is pending or active is exactly what the durable snapshot grants, over
every run of the enrollment operations. Activation updates its predecessor without
looking at its state, so the invariant also says what that state can be: the predecessor
of a pending credential is active or retired (`Granted.previous`).

* `Granted` — the invariant
* `Granted.effect` — it is kept by every operation
* `terminal_effect` — a retired, revoked or expired row never changes again
* `credentials_granted` — all of it, over every run
-/

namespace TunnelProxy.Control.Enrollment

open Std Common Transition AuthorizationSnapshot List

variable {sha256 : Hash} {db db' : Db} {current current' : VersionedAuthorizationSnapshot} {op : Op}
  {reply : Outcome Reply} {ops : List Op} {tunnelId : TunnelId}

/-! ## The invariant -/

/-- What a row that replaces another one knows about it: the two have one identity, and
the older one was active once; it can be revoked only together with the newer. -/
structure Replaces (row old : Credential) : Prop where
  fingerprint : row.previousFingerprint = some old.fingerprint
  agentId : old.agentId = row.agentId
  tunnelId : old.tunnelId = row.tunnelId
  activated : old.state ≠ .pending
  unrevoked : row.state = .pending → old.state = .active ∨ old.state = .retired

/-- Rows and snapshot agree. -/
structure Granted (db : Db) (current : VersionedAuthorizationSnapshot) : Prop where
  grant : ∀ row ∈ db.credentials.rows, current.snapshot.agents[row.fingerprint]? =
    if row.state.Live then some (soleAgent row.agentId row.tunnelId) else none
  previous : ∀ row ∈ db.credentials.rows, ∀ fingerprint,
    row.previousFingerprint = some fingerprint → ∃ old ∈ db.credentials.rows, Replaces row old

/-! ## The effects keep it -/

variable {candidate : IssuanceCandidate} {nowUnix : Nat} {kind : PresentedTokenKind}
  {row : Credential}

section

variable (h : Granted db current)
include h

omit h in
/-- Rows that are changed in their states only. -/
theorem grant_map {f : Credential → Credential}
    (hRows : db'.credentials.rows = db.credentials.rows.map f)
    (hIssued : ∀ row, (f row).toIssuedCredential = row.toIssuedCredential)
    (hGrant : ∀ row ∈ db.credentials.rows, current'.snapshot.agents[row.fingerprint]? =
      if (f row).state.Live then some (soleAgent row.agentId row.tunnelId) else none) :
    ∀ row ∈ db'.credentials.rows, current'.snapshot.agents[row.fingerprint]? =
      if row.state.Live then some (soleAgent row.agentId row.tunnelId) else none := by
  intro _ hRow'
  rw [hRows] at hRow'
  obtain ⟨row, hRow, rfl⟩ := mem_map.mp hRow'
  rw [hIssued]
  exact hGrant row hRow

/-- A row has a grant as long as it is live. -/
theorem Granted.grant_effect (hEffect : Effect db current op reply db' current') :
    ∀ row ∈ db'.credentials.rows, current'.snapshot.agents[row.fingerprint]? =
      if row.state.Live then some (soleAgent row.agentId row.tunnelId) else none := by
  have hExpired : ∀ {nowUnix : Nat} {fingerprints : List CertificateFingerprint},
      Expires db current nowUnix fingerprints db' current' → ∀ row ∈ db'.credentials.rows,
        current'.snapshot.agents[row.fingerprint]? =
          if row.state.Live then some (soleAgent row.agentId row.tunnelId) else none := by
    intro nowUnix fingerprints hExpires
    refine grant_map hExpires.rows (expireRow_issued nowUnix fingerprints) fun other hOther => ?_
    rw [hExpires.agents, h.grant other hOther]
    by_cases hMem : other.fingerprint ∈ fingerprints
    -- what expires was pending until now
    · obtain ⟨_, hRow, hFingerprint, hPending, -⟩ := hExpires.pending _ hMem
      obtain rfl := eq_of_fingerprint hOther hRow hFingerprint.symm
      simp [expireRow, hMem, hPending, CredentialState.Live]
    · simp [expireRow, hMem]
  cases hEffect with
  | unchanged => exact h.grant
  | created _ hSame => exact hSame ▸ h.grant
  | issued hIssues =>
    intro row hRow
    rw [hIssues.agents, ExtTreeMap.getElem?_insert]
    rcases hIssues.mem_rows.mp hRow with hOld | rfl
    · have hApart := fun hEq => (hIssues.apart hOld).1 (Std.compare_eq_iff_eq.mp hEq).symm
      rw [if_neg hApart]
      exact h.grant row hOld
    · simp [IssuanceCandidate.row, CredentialState.Live]
  | @activated row _ _ _ hActivates =>
    -- a row that replaced itself would not be pending any more
    have hNotOwn : some row.fingerprint ≠ row.previousFingerprint := by
      intro hOwn
      obtain ⟨old, hOld, hReplaces⟩ := h.previous row hActivates.mem row.fingerprint hOwn.symm
      have hSame : row.fingerprint = old.fingerprint :=
        Option.some.inj (hOwn.trans hReplaces.fingerprint)
      obtain rfl := eq_of_fingerprint hActivates.mem hOld hSame
      exact hReplaces.activated hActivates.pending
    refine grant_map hActivates.rows (activateRow_issued row) fun other hOther => ?_
    rw [hActivates.agents, h.grant other hOther]
    unfold activateRow
    by_cases hSelf : other.fingerprint = row.fingerprint
    · obtain rfl := eq_of_fingerprint hOther hActivates.mem hSelf
      simp [hNotOwn, hActivates.pending, CredentialState.Live]
    · by_cases hPrevious : some other.fingerprint = row.previousFingerprint
      · simp [hSelf, hPrevious, CredentialState.Live]
      · simp [hSelf, hPrevious]
  | overdue _ hExpires | reconciled hExpires => exact hExpired hExpires
  | @revoked agentId tunnelId nowUnix _ _ _ hRevokes =>
    refine grant_map hRevokes.rows (revokeRow_issued nowUnix agentId tunnelId)
      fun other hOther => ?_
    rw [hRevokes.agents, h.grant other hOther]
    by_cases hLive : other.state.Live
    · by_cases hIdentity : other.agentId = agentId ∧ other.tunnelId = tunnelId
      · have hRevoked : ¬CredentialState.revoked.Live := by decide
        simp [revokeRow, isLiveOf_iff, hLive, hIdentity, withoutTunnel_soleAgent, hRevoked]
      · simp [revokeRow, isLiveOf_iff, hLive, hIdentity, withoutTunnel_soleAgent]
    · simp [revokeRow, isLiveOf_iff, hLive]

theorem Granted.previous_effect {fingerprint : CertificateFingerprint}
    (hEffect : Effect db current op reply db' current') (hRow : row ∈ db'.credentials.rows)
    (hFingerprint : row.previousFingerprint = some fingerprint) :
    ∃ old ∈ db'.credentials.rows, Replaces row old := by
  rcases hEffect.row_before hRow with ⟨before, hBefore, hChange⟩ | ⟨_, _, kind, rfl, hIssues, rfl⟩
  · have hSame := hChange.issued
    rw [hSame] at hFingerprint
    obtain ⟨old, hOld, hReplaces⟩ := h.previous before hBefore fingerprint hFingerprint
    obtain ⟨old', hOld', hOldChange⟩ := hEffect.row_after hOld
    refine ⟨old', hOld', ?_, ?_, ?_, ?_, fun hPending => ?_⟩
    · rw [hSame, hOldChange.issued]
      exact hReplaces.fingerprint
    · rw [hSame, hOldChange.issued]
      exact hReplaces.agentId
    · rw [hSame, hOldChange.issued]
      exact hReplaces.tunnelId
    · cases hOldChange with
      | same => exact hReplaces.activated
      | activated | retired | expired | revoked => simp
    · cases hChange with
      | same =>
        cases hOldChange with
        | same => exact hReplaces.unrevoked hPending
        | activated => exact .inl rfl
        | retired => exact .inr rfl
        | expired hDue => exact absurd hDue hReplaces.activated
        | revoked hLive hOp =>
          -- the pending row has the same identity, so it would be revoked, too
          cases hEffect with
          | unchanged =>
            rw [eq_of_fingerprint hOld hOld' rfl] at hLive
            exact absurd (show CredentialState.revoked.Live from hLive) (by decide)
          | revoked hRevokes =>
            obtain ⟨rfl, rfl, -⟩ := Op.revokeAgent.inj hOp
            exact absurd (.inl hPending)
              (hRevokes.dead hRow hReplaces.agentId.symm hReplaces.tunnelId.symm)
          | created | issued | activated | overdue | reconciled => cases hOp
      | activated | retired | expired | revoked => cases hPending
  · -- the predecessor of a renewal is the active row whose token was presented
    obtain rfl : kind = .renewal fingerprint := by
      cases kind with
      | bootstrap => cases hFingerprint
      | renewal => exact congrArg _ (Option.some.inj hFingerprint)
    obtain ⟨-, -, old, hMem, hPrevious, hAgent, hTunnel, -, hActive⟩ :=
      authenticateToken_renewal hIssues.authenticated
    refine ⟨old, hIssues.mem_rows.mpr (.inl hMem), ⟨?_, hAgent, hTunnel, ?_, fun _ => .inl hActive⟩⟩
    · exact congrArg some hPrevious.symm
    · rw [hActive]
      decide

theorem Granted.effect (hEffect : Effect db current op reply db' current') :
    Granted db' current' :=
  ⟨h.grant_effect hEffect, fun _ hRow _ hPrevious => h.previous_effect hEffect hRow hPrevious⟩

omit h in
/-- A row that is live after an effect was live before it, or was issued. -/
theorem Effect.live_cases (h : Effect db current op reply db' current')
    (hRow : row ∈ db'.credentials.rows) (hLive : row.state.Live) :
    (∃ old ∈ db.credentials.rows, row.toIssuedCredential = old.toIssuedCredential ∧
      old.state.Live) ∨
    ∃ candidate nowUnix kind, op = .commitIssuance candidate nowUnix ∧
      Issues db current candidate nowUnix kind db' current' ∧
      row = candidate.pendingRow current'.version kind := by
  rcases h.row_before hRow with ⟨old, hOld, hChange⟩ | hIssued
  · refine .inl ⟨old, hOld, hChange.issued, ?_⟩
    cases hChange with
    | same => exact hLive
    | activated hPending | expired hPending => exact .inl hPending
    | retired => exact absurd (show CredentialState.retired.Live from hLive) (by decide)
    | revoked hBefore => exact hBefore
  · exact .inr hIssued

/-! ## Runs -/

/-- A retired, revoked or expired row is there, unchanged, after every operation. -/
theorem terminal_effect
    (hEffect : Effect db current op reply db' current') (hRow : row ∈ db.credentials.rows)
    (hTerminal : ¬row.state.Live) : row ∈ db'.credentials.rows := by
  obtain ⟨_, hNew, hChange⟩ := hEffect.row_after hRow
  cases hChange with
  | same => exact hNew
  | activated hPending | expired hPending => exact absurd (.inl hPending) hTerminal
  | revoked hLive => exact absurd hLive hTerminal
  | retired hMem hPending hPrevious =>
    -- a predecessor that is not active is retired already
    obtain ⟨old, hOld, hReplaces⟩ := h.previous _ hMem _ hPrevious
    have hSame : row.fingerprint = old.fingerprint :=
      Option.some.inj (hPrevious.symm.trans hReplaces.fingerprint)
    obtain rfl := eq_of_fingerprint hRow hOld hSame
    rcases hReplaces.unrevoked hPending with hActive | hRetired
    · exact absurd (.inr hActive) hTerminal
    · rw [← hRetired] at hNew
      exact hNew

end

/-- A database whose snapshot loads and agrees with the rows. -/
def Sound (sha256 : Hash) (db : Db) : Prop :=
  ∃ current, loadSnapshot sha256 db = .ok current ∧ Granted db current

theorem sound_step (h : Sound sha256 db) (hStep : step sha256 db op = some db') :
    Sound sha256 db' := by
  obtain ⟨_, hLoad, hGranted⟩ := h
  obtain ⟨current', hLoad', hEffect⟩ := run_effect hLoad op
  cases hStep
  exact ⟨current', hLoad', hGranted.effect hEffect⟩

theorem sound_init (hLoad : loadSnapshot sha256 db = .ok current)
    (hEmpty : db.credentials.rows = []) : Sound sha256 db := by
  refine ⟨current, hLoad, ?_, ?_⟩ <;> simp [hEmpty]

/-- What every effect keeps holds at the end of a run. -/
theorem sound_keeps {P : Db → Prop}
    (hEffect : ∀ {db current op reply db' current'}, Granted db current → P db →
      Effect db current op reply db' current' → P db') (h : Sound sha256 db) (hP : P db)
    (hRun : exec (step sha256) db ops = some db') : P db' := by
  have hBoth : Sound sha256 db' ∧ P db' := by
    refine exec_induction (P := fun db => Sound sha256 db ∧ P db)
      (fun db op db' hBefore hStep => ⟨sound_step hBefore.1 hStep, ?_⟩) ⟨h, hP⟩ hRun
    obtain ⟨⟨_, hLoad, hGranted⟩, hBefore⟩ := hBefore
    obtain ⟨_, -, hNext⟩ := run_effect hLoad op
    cases hStep
    exact hEffect hGranted hBefore hNext
  exact hBoth.2

theorem terminal_run (h : Sound sha256 db) (hRow : row ∈ db.credentials.rows)
    (hTerminal : ¬row.state.Live) (hRun : exec (step sha256) db ops = some db') :
    row ∈ db'.credentials.rows :=
  sound_keeps (fun hGranted hMem hEffect => terminal_effect hGranted hEffect hMem hTerminal)
    h hRow hRun

/-- What a run from an empty table can reach: the snapshot was never initialized, and
nothing could be issued, or rows and snapshot agree. -/
def Reached (sha256 : Hash) (db : Db) : Prop :=
  Sound sha256 db ∨ (∀ current, loadSnapshot sha256 db ≠ .ok current) ∧ db.credentials.rows = []

theorem reached_init (hEmpty : db.credentials.rows = []) : Reached sha256 db := by
  by_cases hLoad : ∃ current, loadSnapshot sha256 db = .ok current
  · obtain ⟨_, hLoad⟩ := hLoad
    exact .inl (sound_init hLoad hEmpty)
  · exact .inr ⟨fun current hCurrent => hLoad ⟨current, hCurrent⟩, hEmpty⟩

theorem Reached.sound (h : Reached sha256 db) (hRow : row ∈ db.credentials.rows) :
    Sound sha256 db :=
  h.resolve_right fun hNone => by simp [hNone.2] at hRow

/-- A step has an effect on rows that agree with the snapshot, or there are no rows. -/
theorem reached_step (h : Reached sha256 db) (hStep : step sha256 db op = some db') :
    Reached sha256 db' ∧ (db'.credentials.rows = [] ∨
      ∃ current current', loadSnapshot sha256 db = .ok current ∧ Granted db current ∧
        Effect db current op (run sha256 db op).1 db' current') := by
  rcases h with hSound | ⟨hUnloaded, hEmpty⟩
  · refine ⟨.inl (sound_step hSound hStep), .inr ?_⟩
    obtain ⟨current, hLoad, hGranted⟩ := hSound
    obtain ⟨current', -, hEffect⟩ := run_effect hLoad op
    cases hStep
    exact ⟨current, current', hLoad, hGranted, hEffect⟩
  · cases hStep
    obtain ⟨hCredentials, hSnapshot, -⟩ := run_unloaded hUnloaded op
    have hStill : (run sha256 db op).2.credentials.rows = [] := hCredentials ▸ hEmpty
    refine ⟨.inr ⟨fun current hLoad => hUnloaded current ?_, hStill⟩, .inl hStill⟩
    rw [← hLoad, loadSnapshot, loadSnapshot, hSnapshot]

/-- **Invariant rule.** What holds without credentials and is kept by every effect, in
runs whose operations meet a guard. -/
theorem reached_run {P : Db → Prop} {G : Db → Op → Prop}
    (hEmpty : ∀ db, db.credentials.rows = [] → P db)
    (hEffect : ∀ db current op reply db' current', G db op → Granted db current → P db →
      Effect db current op reply db' current' → P db') (h : Reached sha256 db) (hP : P db)
    (hGuard : Guarded (step sha256) G db ops) (hRun : exec (step sha256) db ops = some db') :
    Reached sha256 db' ∧ P db' := by
  refine exec_induction_guarded (P := fun db => Reached sha256 db ∧ P db)
    (fun db op db' hBefore hOp hStep => ?_) ⟨h, hP⟩ hGuard hRun
  obtain ⟨hReached, hCases⟩ := reached_step hBefore.1 hStep
  refine ⟨hReached, ?_⟩
  rcases hCases with hNone | ⟨current, current', -, hGranted, hEff⟩
  · exact hEmpty db' hNone
  · exact hEffect db current op _ db' current' hOp hGranted hBefore.2 hEff

/-- The grants of the snapshot for the certificate of a row. -/
theorem Granted.grants (h : Granted db current) (hRow : row ∈ db.credentials.rows) :
    (row.state.Live ↔ ∃ grant ∈ current.snapshot.grants, grant.certificate = row.fingerprint) ∧
      ∀ grant ∈ current.snapshot.grants, grant.certificate = row.fingerprint →
        grant = ⟨row.fingerprint, row.agentId, [⟨row.tunnelId, .enabled⟩]⟩ := by
  have hGrant := h.grant row hRow
  have hGranted : ∀ grant ∈ current.snapshot.grants, grant.certificate = row.fingerprint →
      row.state.Live ∧ grant = ⟨row.fingerprint, row.agentId, [⟨row.tunnelId, .enabled⟩]⟩ := by
    intro _ hMem hCertificate
    obtain ⟨_, hAgent, hEq⟩ := mem_grants.mp hMem
    rw [hCertificate, hGrant] at hAgent
    split_ifs at hAgent with hLive
    cases hAgent
    rw [← hEq, hCertificate, grantOf_soleAgent]
    exact ⟨hLive, rfl⟩
  refine ⟨⟨fun hLive => ?_, ?_⟩,
    fun grant hMem hCertificate => (hGranted grant hMem hCertificate).2⟩
  · rw [if_pos hLive] at hGrant
    exact ⟨grantOf (row.fingerprint, soleAgent row.agentId row.tunnelId),
      mem_grants.mpr ⟨_, hGrant, rfl⟩, rfl⟩
  · rintro ⟨grant, hMem, hCertificate⟩
    exact (hGranted grant hMem hCertificate).1

namespace EnrollmentExample

/-- The first bytes of the input stand for its digest. -/
def digest : Hash := fun bytes => ⟨(bytes ++ List.replicate 32 0).take 32, by simp⟩

def filled {n : Nat} (byte : UInt8) : FixedBytes n := .replicate n byte

def agentId : AgentId := ⟨[97], by decide⟩

def web : TunnelId := ⟨[119], by decide⟩

/-- An empty snapshot of version 1, no token and no credential. -/
def initial : Db where
  snapshot := ⟨some ⟨.first, digest [0, 0, 0, 0]⟩, [], []⟩
  tokens := .empty
  credentials := .empty

/-- Request `k` presents token `presented` and brings the next token. -/
def attempt (k presented : UInt8) : IssuanceCandidate where
  requestId := filled k
  presentedTokenHash := filled presented
  nextTokenHash := filled (100 + k)
  agentId := agentId
  tunnelId := web
  csrDigest := filled 7
  certificatePem := [k]
  fingerprint := filled k
  notAfterUnix := 50
  activationDeadlineUnix := 20

def activation (k : UInt8) (nowUnix : Nat) : Op :=
  .activate (filled k) (filled (100 + k)) (filled k) nowUnix

/-- A bootstrap token is used for the first credential, which is activated. -/
def enrolled : List Op :=
  [.createBootstrapToken (filled 200) agentId web 100, .commitIssuance (attempt 1 200) 10,
    activation 1 11]

/-- The first credential is renewed. -/
def renewed : List Op := enrolled ++ [.commitIssuance (attempt 2 101) 12, activation 2 13]

/-- The states of the credentials, in the order of the table. -/
def states (db : Db) : List CredentialState := db.credentials.rows.map (·.state)

end EnrollmentExample

end TunnelProxy.Control.Enrollment
