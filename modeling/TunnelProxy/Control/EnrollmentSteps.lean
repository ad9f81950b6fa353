import TunnelProxy.Control.Enrollment

/-!
# What the enrollment operations do

Each operation either leaves the database as it is or has one of five effects, stated in
terms of the rows and of the map of the durable snapshot (`Effect`). `run_effect` derives
them from the operations once; the invariants are then proved over effects.

* `run_hasEffect` — every operation leaves the snapshot alone or edits one that loads, and then
  it loads again afterwards; `run_effect` and `run_unloaded` are its two cases
* `Effect.rows_cases` — what can become of a row, and which operation does it
-/

namespace TunnelProxy.Control.Enrollment

open Std Common AuthorizationSnapshot List ExtTreeMap SnapshotTables

variable {sha256 : Hash} {db db' : Db} {current current' : VersionedAuthorizationSnapshot}
  {version : SnapshotVersion} {grants : List AgentGrant} {snapshot : AuthorizationSnapshot}

/-! ## The snapshot of the database -/

theorem nextVersion_eq_ok (h : nextVersion current.version = .ok version) :
    version.value = current.version.value + 1 := by
  unfold nextVersion SnapshotVersion.new at h
  split_ifs at h
  cases h
  rfl

theorem lt_nextVersion (h : nextVersion current.version = .ok version) :
    current.version < version := by
  show current.version.value < version.value
  rw [nextVersion_eq_ok h]
  exact Nat.lt_succ_self _

theorem nextVersion_eq_error {error : EnrollmentRepositoryError}
    (h : nextVersion current.version = .error error) : current.version.value + 1 = 2 ^ 64 := by
  unfold nextVersion SnapshotVersion.new at h
  have hLt := current.version.lt
  split_ifs at h with hFits
  omega

theorem toI64_eq_ok {unix : Nat} {time : Int} (h : toI64 unix = .ok time) : time = unix := by
  unfold toI64 at h
  split_ifs at h
  cases h
  rfl

theorem loadLatest_of_loadSnapshot (h : loadSnapshot sha256 db = .ok current) :
    db.snapshot.loadLatest sha256 = .ok (some current) := by
  unfold loadSnapshot at h
  split at h
  · cases h
  · cases h
  · cases h
    assumption

/-- What is loaded has been encoded for its digest. -/
theorem encodes_of_loadSnapshot (h : loadSnapshot sha256 db = .ok current) :
    ∃ bytes, encodeSnapshot current.snapshot = .ok bytes := by
  obtain ⟨_, -, -, hDigest⟩ := head_of_loadLatest (loadLatest_of_loadSnapshot h)
  obtain ⟨bytes, hBytes, -⟩ := snapshotDigest_eq_ok hDigest
  exact ⟨bytes, hBytes⟩

/-- Written grants are the ones that are loaded, and nothing else changes. -/
theorem writeGrants_eq_ok (hLoad : loadSnapshot sha256 db = .ok current)
    (h : writeGrants sha256 db version grants = .ok db') :
    ∃ snapshot, AuthorizationSnapshot.new grants = .ok snapshot ∧
      loadSnapshot sha256 db' = .ok ⟨version, snapshot⟩ ∧
      db'.tokens = db.tokens ∧ db'.credentials = db.credentials := by
  obtain ⟨head, hHead, -⟩ := head_of_loadLatest (loadLatest_of_loadSnapshot hLoad)
  unfold writeGrants replaceSnapshot at h
  split at h
  · cases h
  · rename_i snapshot hNew
    split at h
    · cases h
    · rename_i hDigest
      cases h
      refine ⟨snapshot, hNew, ?_, rfl, rfl⟩
      simp only [loadSnapshot, loadLatest_write hHead hDigest]

/-- Whether or not the edit changed the grants, it is loaded afterwards. -/
theorem updateGrants_eq_ok {changed : Bool} (hLoad : loadSnapshot sha256 db = .ok current)
    (h : updateGrants sha256 db current grants = .ok (version, changed, db')) :
    ∃ snapshot, AuthorizationSnapshot.new grants = .ok snapshot ∧
      loadSnapshot sha256 db' = .ok ⟨version, snapshot⟩ ∧
      (db'.tokens = db.tokens ∧ db'.credentials = db.credentials) ∧
      (db'.snapshot = db.snapshot ∨ current.version < version) := by
  unfold updateGrants at h
  split_ifs at h with hChanged
  · obtain ⟨_, hNext, hRest⟩ := bind_eq_ok.mp h
    obtain ⟨_, hWrite, hResult⟩ := bind_eq_ok.mp hRest
    cases hResult
    obtain ⟨snapshot, hNew, hLoad', hSame⟩ := writeGrants_eq_ok hLoad hWrite
    exact ⟨snapshot, hNew, hLoad', hSame, .inr (lt_nextVersion hNext)⟩
  · cases h
    rw [not_not.mp hChanged]
    exact ⟨current.snapshot, new_grants _, hLoad, ⟨rfl, rfl⟩, .inl rfl⟩

/-! ## Edits of the grants, as edits of the map -/

variable {certificate : CertificateFingerprint} {agentId : AgentId} {tunnelId : TunnelId}

/-- An Agent authorized for one enabled tunnel. -/
def soleAgent (agentId : AgentId) (tunnelId : TunnelId) : AuthorizedAgent :=
  ⟨agentId, (∅ : ExtTreeMap TunnelId TunnelStatus).insert tunnelId .enabled⟩

theorem grantOf_soleAgent :
    grantOf (certificate, soleAgent agentId tunnelId) =
      ⟨certificate, agentId, [⟨tunnelId, .enabled⟩]⟩ := by
  have hList : (soleAgent agentId tunnelId).tunnels.toList = [(tunnelId, .enabled)] := by
    have hLength : (soleAgent agentId tunnelId).tunnels.toList.length = 1 := by
      simp [soleAgent, length_toList, size_insert]
    obtain ⟨_, hEntry⟩ := length_eq_one_iff.mp hLength
    have hMem : (tunnelId, TunnelStatus.enabled) ∈ (soleAgent agentId tunnelId).tunnels.toList := by
      simp [soleAgent, mem_toList_iff_getElem?_eq_some]
    rw [hEntry] at hMem ⊢
    rw [mem_singleton.mp hMem]
  simp [grantOf, hList]
  rfl

theorem any_grants_eq_false : snapshot.grants.any (·.certificate = certificate) = false ↔
      certificate ∉ snapshot.agents := by
  rw [← Bool.not_eq_true, any_eq_true, TreeMap.mem_iff_exists, not_iff_not]
  constructor
  · rintro ⟨_, hGrant, hCertificate⟩
    obtain ⟨agent, hAgent, -⟩ := mem_grants.mp hGrant
    exact ⟨agent, of_decide_eq_true hCertificate ▸ hAgent⟩
  · rintro ⟨agent, hAgent⟩
    exact ⟨grantOf (certificate, agent),
      mem_grants.mpr ⟨agent, hAgent, rfl⟩, decide_eq_true rfl⟩

/-- Dropping grants by their certificates drops the entries of the map. -/
theorem lookup_of_new_filter {snapshot' : AuthorizationSnapshot}
    (keep : CertificateFingerprint → Prop) [DecidablePred keep] (h : AuthorizationSnapshot.new
      (snapshot.grants.filter fun grant => keep grant.certificate) = .ok snapshot')
    (certificate : CertificateFingerprint) :
    snapshot'.agents[certificate]? =
      if keep certificate then snapshot.agents[certificate]? else none := by
  obtain ⟨filtered, hNew, hLookup⟩ := new_filter snapshot
    fun grant => keep grant.certificate
  obtain rfl : filtered = snapshot' := Except.ok.inj (hNew.symm.trans h)
  refine Option.ext fun agent => ?_
  rw [hLookup, decide_eq_true_iff]
  simp only [grantOf]
  split_ifs with hKeep <;> simp [hKeep]

/-- An Agent without one of its tunnels, if another is left. Agents with no tunnel are
dropped whoever they are. -/
def withoutTunnel (agentId : AgentId) (tunnelId : TunnelId) (agent : AuthorizedAgent) :
    Option AuthorizedAgent :=
  let tunnels :=
    if agent.agentId = agentId then agent.tunnels.filter fun id _ => id ≠ tunnelId
    else agent.tunnels
  if tunnels.isEmpty then none else some ⟨agent.agentId, tunnels⟩

theorem withoutTunnel_soleAgent {agentId' : AgentId} {tunnelId' : TunnelId} :
    withoutTunnel agentId tunnelId (soleAgent agentId' tunnelId') =
      if agentId' = agentId ∧ tunnelId' = tunnelId then none
      else some (soleAgent agentId' tunnelId') := by
  have hFilter : (soleAgent agentId' tunnelId').tunnels.filter (fun id _ => id ≠ tunnelId) =
      if tunnelId' = tunnelId then ∅ else (soleAgent agentId' tunnelId').tunnels := by
    refine ext_getElem? fun id => ?_
    simp only [soleAgent, getElem?_filter', ExtTreeMap.getElem?_insert,
      Std.compare_eq_iff_eq, getElem?_empty]
    split_ifs <;> simp_all
  have hNonempty : (soleAgent agentId' tunnelId').tunnels.isEmpty = false := by
    simp [soleAgent]
  by_cases hAgent : agentId' = agentId
  · simp only [withoutTunnel, show (soleAgent agentId' tunnelId').agentId = agentId from hAgent,
      if_true, hFilter]
    split_ifs <;> simp_all [soleAgent]
  · simp only [withoutTunnel, show (soleAgent agentId' tunnelId').agentId ≠ agentId from hAgent,
      if_false, hNonempty, hAgent, false_and]
    rfl

/-- The snapshot that `remove_agent_tunnel` leaves. -/
def snapshotWithoutTunnel (snapshot : AuthorizationSnapshot) (agentId : AgentId)
    (tunnelId : TunnelId) : AuthorizationSnapshot :=
  ⟨snapshot.agents.filterMap fun _ => withoutTunnel agentId tunnelId⟩

/-- `remove_agent_tunnel` drops the tunnel from every entry. -/
theorem removeAgentTunnel_grants (snapshot : AuthorizationSnapshot) :
    removeAgentTunnel snapshot.grants agentId tunnelId =
      (snapshotWithoutTunnel snapshot agentId tunnelId).grants := by
  rw [removeAgentTunnel, AuthorizationSnapshot.grants, AuthorizationSnapshot.grants,
    snapshotWithoutTunnel, toList_filterMap, filterMap_map,
    map_filterMap]
  refine filterMap_congr ?_
  rintro ⟨certificate, agent⟩ -
  have hFilter : agent.tunnels.toList.filter (fun tunnel => tunnel.1 ≠ tunnelId) =
      (agent.tunnels.filter fun id _ => id ≠ tunnelId).toList := by
    rw [toList_filter]
  by_cases hAgent : agent.agentId = agentId
  · simp only [grantOf, withoutTunnel, hAgent, if_true, Function.comp_apply,
      filter_map, Function.comp_def, hFilter, isEmpty_map, isEmpty_toList]
    split_ifs <;> rfl
  · simp only [grantOf, withoutTunnel, hAgent, if_false, Function.comp_apply,
      isEmpty_map, isEmpty_toList]
    split_ifs <;> rfl

/-! ## Effects -/

/-- A new credential for the candidate, with its grant in the next snapshot. -/
structure Issues (db : Db) (current : VersionedAuthorizationSnapshot)
    (candidate : IssuanceCandidate) (nowUnix : Nat) (kind : PresentedTokenKind) (db' : Db)
    (current' : VersionedAuthorizationSnapshot) : Prop where
  authenticated : authenticateToken db candidate.presentedTokenHash candidate.agentId
    candidate.tunnelId nowUnix = .ok kind
  inserted : db.credentials.insert (candidate.row candidate.notAfterUnix
    candidate.activationDeadlineUnix current'.version kind.previous) = some db'.credentials
  tokens : db'.tokens =
    if kind = .bootstrap then (db.consume candidate.presentedTokenHash).tokens else db.tokens
  absent : candidate.fingerprint ∉ current.snapshot.agents
  agents : current'.snapshot.agents = current.snapshot.agents.insert candidate.fingerprint
    (soleAgent candidate.agentId candidate.tunnelId)
  version : current'.version.value = current.version.value + 1

/-- The row `activated` becomes active and its predecessor retired. -/
def activateRow (activated row : Credential) : Credential :=
  if row.fingerprint = activated.fingerprint then { row with state := .active }
  else if some row.fingerprint = activated.previousFingerprint then { row with state := .retired }
  else row

@[simp]
theorem activateRow_issued (activated row : Credential) :
    (activateRow activated row).toIssuedCredential = row.toIssuedCredential := by
  unfold activateRow
  split_ifs <;> rfl

/-- What a row was before an activation, from what it is after it. -/
theorem activateRow_state (activated row : Credential) :
    row.fingerprint = activated.fingerprint ∧ (activateRow activated row).state = .active ∨
      some row.fingerprint = activated.previousFingerprint ∧
        (activateRow activated row).state = .retired ∨
      row.fingerprint ≠ activated.fingerprint ∧
        some row.fingerprint ≠ activated.previousFingerprint ∧ activateRow activated row = row := by
  unfold activateRow
  split_ifs with hSelf hPrevious
  · exact .inl ⟨hSelf, rfl⟩
  · exact .inr (.inl ⟨hPrevious, rfl⟩)
  · exact .inr (.inr ⟨hSelf, hPrevious, rfl⟩)

/-- A pending credential becomes active, and the grant of its predecessor goes. -/
structure Activates (db : Db) (current : VersionedAuthorizationSnapshot) (activated : Credential)
    (db' : Db) (current' : VersionedAuthorizationSnapshot) : Prop where
  mem : activated ∈ db.credentials.rows
  pending : activated.state = .pending
  rows : db'.credentials.rows = db.credentials.rows.map (activateRow activated)
  tokens : db'.tokens = db.tokens
  agents : ∀ certificate : CertificateFingerprint, current'.snapshot.agents[certificate]? =
    if some certificate ≠ activated.previousFingerprint then current.snapshot.agents[certificate]?
    else none

@[simp]
theorem expireRow_issued (terminalAt : Int) (fingerprints : List CertificateFingerprint)
    (row : Credential) :
    (expireRow terminalAt fingerprints row).toIssuedCredential = row.toIssuedCredential := by
  unfold expireRow
  split_ifs <;> rfl

/-- Pending credentials past their deadline expire, and their grants go. -/
structure Expires (db : Db) (current : VersionedAuthorizationSnapshot) (nowUnix : Nat)
    (fingerprints : List CertificateFingerprint) (db' : Db)
    (current' : VersionedAuthorizationSnapshot) : Prop where
  pending : ∀ fingerprint ∈ fingerprints, ∃ row ∈ db.credentials.rows,
    row.fingerprint = fingerprint ∧ row.state = .pending ∧ row.activationDeadline ≤ nowUnix
  rows : db'.credentials.rows = db.credentials.rows.map (expireRow nowUnix fingerprints)
  tokens : db'.tokens = db.tokens
  agents : ∀ certificate : CertificateFingerprint, current'.snapshot.agents[certificate]? =
    if certificate ∉ fingerprints then current.snapshot.agents[certificate]? else none

def revokeRow (terminalAt : Int) (agentId : AgentId) (tunnelId : TunnelId) (row : Credential) :
    Credential :=
  if row.isLiveOf agentId tunnelId then
    { row with state := .revoked, terminalAt := some terminalAt }
  else row

@[simp]
theorem revokeRow_issued (terminalAt : Int) (agentId : AgentId) (tunnelId : TunnelId)
    (row : Credential) :
    (revokeRow terminalAt agentId tunnelId row).toIssuedCredential = row.toIssuedCredential := by
  unfold revokeRow
  split_ifs <;> rfl

def revokeToken (agentId : AgentId) (tunnelId : TunnelId) (token : BootstrapToken) :
    BootstrapToken :=
  if token.agentId = agentId ∧ token.tunnelId = tunnelId then
    { token with consumed := true, revoked := true }
  else token

/-- The tokens and the live credentials of an Agent's tunnel are revoked, and the tunnel
goes from all grants of the Agent. -/
structure Revokes (db : Db) (current : VersionedAuthorizationSnapshot) (agentId : AgentId)
    (tunnelId : TunnelId) (nowUnix : Nat) (db' : Db)
    (current' : VersionedAuthorizationSnapshot) : Prop where
  rows : db'.credentials.rows = db.credentials.rows.map (revokeRow nowUnix agentId tunnelId)
  tokens : db'.tokens.rows = db.tokens.rows.map (revokeToken agentId tunnelId)
  agents : ∀ certificate : CertificateFingerprint, current'.snapshot.agents[certificate]? =
    current.snapshot.agents[certificate]?.bind (withoutTunnel agentId tunnelId)

/-- What an operation does to the database and to the snapshot it holds. -/
inductive Effect (db : Db) (current : VersionedAuthorizationSnapshot) :
    Op → Outcome Reply → Db → VersionedAuthorizationSnapshot → Prop
  | unchanged {op reply} : Effect db current op reply db current
  | created {tokenHash agentId tunnelId} {expiresAtUnix : Nat} {db'}
      (inserted : db.tokens.insert ⟨tokenHash, agentId, tunnelId, expiresAtUnix, false, false⟩ =
        some db'.tokens)
      (credentials : db'.credentials = db.credentials) :
      Effect db current (.createBootstrapToken tokenHash agentId tunnelId expiresAtUnix)
        (.ok .created) db' current
  | issued {candidate nowUnix kind db' current'}
      (issues : Issues db current candidate nowUnix kind db' current') :
      Effect db current (.commitIssuance candidate nowUnix)
        (.ok (.issued ⟨current'.version, candidate.certificatePem, candidate.fingerprint,
          candidate.notAfterUnix⟩)) db' current'
  | activated {row nowUnix db' current'}
      (activates : Activates db current row db' current') :
      Effect db current (.activate row.requestId row.renewalTokenHash row.fingerprint nowUnix)
        (.ok (.activated current'.version)) db' current'
  | overdue {row : Credential} {nowUnix db' current'} (mem : row ∈ db.credentials.rows)
      (expires : Expires db current nowUnix [row.fingerprint] db' current') :
      Effect db current (.activate row.requestId row.renewalTokenHash row.fingerprint nowUnix)
        (.error .requestExpired) db' current'
  | revoked {agentId tunnelId nowUnix outcome db' current'}
      (revokes : Revokes db current agentId tunnelId nowUnix db' current') :
      Effect db current (.revokeAgent agentId tunnelId nowUnix) (.ok (.mutated outcome)) db'
        current'
  | reconciled {nowUnix fingerprints outcome db' current'}
      (expires : Expires db current nowUnix fingerprints db' current') :
      Effect db current (.reconcileExpired nowUnix) (.ok (.mutated outcome)) db' current'

/-- What an operation does in any database: it leaves the snapshot and the credentials alone, or
edits a snapshot that loads, and then a snapshot that is the same or newer loads afterwards. -/
inductive HasEffect (sha256 : Hash) (db : Db) (op : Op) (result : Outcome Reply × Db) : Prop
  | aside (credentials : result.2.credentials = db.credentials)
      (snapshot : result.2.snapshot = db.snapshot)
      (effect : ∀ current, Effect db current op result.1 result.2 current)
  | edits {current current' : VersionedAuthorizationSnapshot}
      (loaded : loadSnapshot sha256 db = .ok current)
      (loads : loadSnapshot sha256 result.2 = .ok current')
      (newer : result.2.snapshot = db.snapshot ∨ current.version < current'.version)
      (effect : Effect db current op result.1 result.2 current')

theorem HasEffect.unchanged {op : Op} {reply : Outcome Reply} :
    HasEffect sha256 db op (reply, db) :=
  .aside rfl rfl fun _ => .unchanged

/-! ## The effect of each operation -/

variable {candidate : IssuanceCandidate} {nowUnix : Nat}

variable {op : Op} {row : Credential} {kind : PresentedTokenKind} {reply : Outcome Reply}

/-- A transaction that fails before its commit leaves everything as it is. -/
theorem hasEffect_transact {α : Type} {body : Outcome (Outcome α × Db)}
    {reply : α → Reply}
    (hCommitted : ∀ result, body = .ok result →
      HasEffect sha256 db op (result.map (·.map reply) id)) :
    HasEffect sha256 db op ((transact db body).map (·.map reply) id) :=
  transact_elim (motive := fun result => HasEffect sha256 db op (result.map (·.map reply) id))
    (fun _ => .unchanged) hCommitted

theorem createBootstrapToken_effect {tokenHash : TokenHash} {expiresAtUnix : Nat} :
    HasEffect sha256 db (.createBootstrapToken tokenHash agentId tunnelId expiresAtUnix)
      (run sha256 db (.createBootstrapToken tokenHash agentId tunnelId expiresAtUnix)) := by
  simp only [run, createBootstrapToken]
  refine hasEffect_transact fun result hBody => ?_
  obtain ⟨expires, hExpires, hRest⟩ := bind_eq_ok.mp hBody
  obtain rfl := toI64_eq_ok hExpires
  split at hRest
  · cases hRest
  · rename_i hInsert
    cases hRest
    exact .aside rfl rfl fun _ => .created hInsert rfl

theorem issue_eq_ok {issuance : DurableIssuance}
    (h : issue sha256 db candidate nowUnix = .ok (issuance, db')) :
    ∃ current kind current', loadSnapshot sha256 db = .ok current ∧
      loadSnapshot sha256 db' = .ok current' ∧
      Issues db current candidate nowUnix kind db' current' ∧
      issuance = ⟨current'.version, candidate.certificatePem, candidate.fingerprint,
        candidate.notAfterUnix⟩ := by
  obtain ⟨kind, hKind, h⟩ := bind_eq_ok.mp h
  obtain ⟨current, hLoad, h⟩ := bind_eq_ok.mp h
  obtain ⟨generation, hGeneration, h⟩ := bind_eq_ok.mp h
  dsimp only at h
  split at h
  · cases h
  rename_i hAny
  have hAbsent := any_grants_eq_false.mp (Bool.eq_false_iff.mpr hAny)
  obtain ⟨written, hWrite, h⟩ := bind_eq_ok.mp h
  obtain ⟨snapshot, hNew, hLoaded, hTokens, hCredentials⟩ := writeGrants_eq_ok hLoad hWrite
  rw [← grantOf_soleAgent, new_concat hAbsent (authorizedAgent_grantOf (candidate.fingerprint, _)),
    Except.ok.injEq] at hNew
  obtain ⟨notAfter, hNotAfter, h⟩ := bind_eq_ok.mp h
  obtain rfl := toI64_eq_ok hNotAfter
  obtain ⟨deadline, hDeadline, h⟩ := bind_eq_ok.mp h
  obtain rfl := toI64_eq_ok hDeadline
  split at h
  · cases h
  rename_i hInsert
  cases h
  rw [hCredentials] at hInsert
  refine ⟨current, kind, ⟨generation, snapshot⟩, hLoad, ?_, ⟨hKind, ?_, ?_, hAbsent, ?_, ?_⟩, rfl⟩
  · split_ifs
    · exact hLoaded
    · exact hLoaded
  · split_ifs
    · exact hInsert
    · exact hInsert
  · split_ifs
    · simp only [Db.consume, hTokens]
    · exact hTokens
  · rw [← hNew]
    rfl
  · exact nextVersion_eq_ok hGeneration

theorem commitIssuance_effect :
    HasEffect sha256 db (.commitIssuance candidate nowUnix)
      (run sha256 db (.commitIssuance candidate nowUnix)) := by
  simp only [run, commitIssuance]
  refine hasEffect_transact fun result hBody => ?_
  split at hBody
  · cases hBody
  obtain ⟨existing, -, h⟩ := bind_eq_ok.mp hBody
  cases existing with
  | some =>
    obtain ⟨_, -, h⟩ := bind_eq_ok.mp h
    cases h
    exact .unchanged
  | none =>
    obtain ⟨⟨_, _⟩, hIssue, h⟩ := bind_eq_ok.mp h
    cases h
    obtain ⟨current, _, current', hLoad, hLoad', hIssues, rfl⟩ := issue_eq_ok hIssue
    have hNewer : current.version.value < current'.version.value := by
      rw [hIssues.version]
      exact Nat.lt_succ_self _
    exact .edits hLoad hLoad' (.inr hNewer) (.issued hIssues)

/-- What `expire_pending_credential` does to a row that is due. -/
theorem expirePendingCredential_eq_ok
    (h : expirePendingCredential sha256 db row.fingerprint nowUnix = .ok (version, db'))
    (hMem : row ∈ db.credentials.rows) (hPending : row.state = .pending)
    (hDue : row.activationDeadline ≤ nowUnix) :
    ∃ current current', loadSnapshot sha256 db = .ok current ∧
      loadSnapshot sha256 db' = .ok current' ∧
      (db'.snapshot = db.snapshot ∨ current.version < current'.version) ∧
      Expires db current nowUnix [row.fingerprint] db' current' := by
  obtain ⟨current, hLoad, h⟩ := bind_eq_ok.mp h
  obtain ⟨⟨_, _, _⟩, hUpdate, h⟩ := bind_eq_ok.mp h
  obtain ⟨_, hTime, h⟩ := bind_eq_ok.mp h
  obtain rfl := toI64_eq_ok hTime
  cases h
  obtain ⟨snapshot, hNew, hLoaded, ⟨hTokens, hCredentials⟩, hNewer⟩ :=
    updateGrants_eq_ok hLoad hUpdate
  refine ⟨current, ⟨version, snapshot⟩, hLoad, hLoaded, hNewer, ?_, ?_, hTokens, ?_⟩
  · rintro _ hFingerprint
    obtain rfl := mem_singleton.mp hFingerprint
    exact ⟨row, hMem, rfl, hPending, hDue⟩
  · simp only [Db.expire, Table.updateWhere, hCredentials]
    refine map_congr_left fun other _ => ?_
    simp only [expireRow, mem_singleton, decide_eq_true_eq]
  · intro certificate
    simpa only [mem_singleton] using
      lookup_of_new_filter (· ≠ row.fingerprint) hNew certificate

theorem activatePending_eq_ok (h : activatePending sha256 db row = .ok (version, db'))
    (hMem : row ∈ db.credentials.rows) (hPending : row.state = .pending) :
    ∃ current current', loadSnapshot sha256 db = .ok current ∧
      loadSnapshot sha256 db' = .ok current' ∧ current'.version = version ∧
      (db'.snapshot = db.snapshot ∨ current.version < current'.version) ∧
      Activates db current row db' current' := by
  obtain ⟨current, hLoad, h⟩ := bind_eq_ok.mp h
  split at h
  · rename_i previous hPrevious
    obtain ⟨_, hNext, h⟩ := bind_eq_ok.mp h
    obtain ⟨_, hWrite, h⟩ := bind_eq_ok.mp h
    cases h
    obtain ⟨snapshot, hNew, hLoaded, hTokens, hCredentials⟩ := writeGrants_eq_ok hLoad hWrite
    refine ⟨current, ⟨version, snapshot⟩, hLoad, hLoaded, rfl, .inr (lt_nextVersion hNext), hMem,
      hPending, ?_, hTokens, ?_⟩
    · -- the second update does not look at what the first one changed
      simp only [Db.setState, Table.updateWhere, hCredentials, List.map_map]
      refine map_congr_left fun other _ => ?_
      simp only [Function.comp_apply, activateRow, hPrevious, decide_eq_true_eq, Option.some.injEq]
      split_ifs <;> simp_all
    · intro certificate
      simpa only [hPrevious, ne_eq, Option.some.injEq] using
        lookup_of_new_filter (· ≠ previous) hNew certificate
  · rename_i hPrevious
    cases h
    refine ⟨current, current, hLoad, hLoad, rfl, .inl rfl, hMem, hPending, ?_, rfl, ?_⟩
    · simp only [Db.setState, Table.updateWhere]
      refine map_congr_left fun other _ => ?_
      simp [activateRow, hPrevious]
    · simp [hPrevious]

theorem activate_effect {requestId : EnrollmentRequestId} {renewalTokenHash : TokenHash}
    {fingerprint : CertificateFingerprint} :
    HasEffect sha256 db (.activate requestId renewalTokenHash fingerprint nowUnix)
      (run sha256 db (.activate requestId renewalTokenHash fingerprint nowUnix)) := by
  simp only [run, activate]
  refine hasEffect_transact fun result hBody => ?_
  split at hBody
  · cases hBody
  rename_i row hFind
  have hMem := mem_of_find?_eq_some hFind
  have hKeys := find?_some hFind
  simp only [decide_eq_true_eq] at hKeys
  obtain ⟨rfl, rfl, rfl⟩ := hKeys
  split at hBody
  · obtain ⟨_, -, h⟩ := bind_eq_ok.mp hBody
    cases h
    exact .unchanged
  · cases hBody
  · cases hBody
  · cases hBody
  · rename_i hPending
    split at hBody
    · rename_i hDue
      obtain ⟨⟨_, _⟩, hExpire, h⟩ := bind_eq_ok.mp hBody
      cases h
      have hDue' : row.activationDeadline ≤ nowUnix := by omega
      obtain ⟨_, _, hLoad, hLoad', hNewer, hExpires⟩ :=
        expirePendingCredential_eq_ok hExpire hMem hPending hDue'
      exact .edits hLoad hLoad' hNewer (.overdue hMem hExpires)
    · obtain ⟨⟨_, _⟩, hActivate, h⟩ := bind_eq_ok.mp hBody
      cases h
      obtain ⟨_, _, hLoad, hLoad', rfl, hNewer, hActivates⟩ :=
        activatePending_eq_ok hActivate hMem hPending
      exact .edits hLoad hLoad' hNewer (.activated hActivates)

/-- A revocation fails and changes nothing, or revokes. -/
theorem revokeAgent_cases :
    (∃ error, revokeAgent sha256 db agentId tunnelId nowUnix = (.error error, db)) ∨
      ∃ outcome db' current current',
        revokeAgent sha256 db agentId tunnelId nowUnix = (.ok outcome, db') ∧
        loadSnapshot sha256 db = .ok current ∧ loadSnapshot sha256 db' = .ok current' ∧
        (db'.snapshot = db.snapshot ∨ current.version < current'.version) ∧
        Revokes db current agentId tunnelId nowUnix db' current' := by
  unfold revokeAgent
  refine transact_elim (motive := fun result => (∃ error, result = (.error error, db)) ∨
    ∃ outcome db' current current', result = (.ok outcome, db') ∧
      loadSnapshot sha256 db = .ok current ∧ loadSnapshot sha256 db' = .ok current' ∧
      (db'.snapshot = db.snapshot ∨ current.version < current'.version) ∧
      Revokes db current agentId tunnelId nowUnix db' current')
    (fun error => .inl ⟨error, rfl⟩) fun result hBody => .inr ?_
  obtain ⟨_, hTime, h⟩ := bind_eq_ok.mp hBody
  obtain rfl := toI64_eq_ok hTime
  obtain ⟨current, hCurrent, h⟩ := bind_eq_ok.mp h
  obtain ⟨⟨version, _, db'⟩, hUpdate, h⟩ := bind_eq_ok.mp h
  cases h
  obtain ⟨snapshot, hNew, hLoaded, ⟨hTokens, hCredentials⟩, hNewer⟩ :=
    updateGrants_eq_ok hCurrent hUpdate
  rw [removeAgentTunnel_grants, new_grants] at hNew
  cases hNew
  refine ⟨_, db', current, ⟨version, _⟩, rfl, hCurrent, hLoaded, hNewer,
    ⟨?_, ?_, fun _ => getElem?_filterMap'⟩⟩
  · rw [hCredentials]
    rfl
  · simp only [hTokens, Table.updateWhere]
    exact map_congr_left fun token _ => by simp [revokeToken]

theorem revokeAgent_effect :
    HasEffect sha256 db (.revokeAgent agentId tunnelId nowUnix)
      (run sha256 db (.revokeAgent agentId tunnelId nowUnix)) := by
  have hCases :
      (∃ error, revokeAgent sha256 db agentId tunnelId nowUnix = (.error error, db)) ∨ _ :=
    revokeAgent_cases
  simp only [run]
  rcases hCases with ⟨_, hFailed⟩ | ⟨_, _, _, _, hDone, hLoad, hLoad', hNewer, hRevokes⟩
  · rw [hFailed]
    exact .unchanged
  · rw [hDone]
    exact .edits hLoad hLoad' hNewer (.revoked hRevokes)

/-- Expiring the fingerprints one after another. -/
theorem rows_foldl_expire (terminalAt : Int) (fingerprints : List CertificateFingerprint) :
    (fingerprints.foldl (Db.expire · terminalAt) db).credentials.rows =
      db.credentials.rows.map (expireRow terminalAt fingerprints) := by
  induction fingerprints generalizing db with
  | nil => simp [show expireRow terminalAt [] = id from funext fun row => by simp [expireRow]]
  | cons _ _ ih =>
    rw [foldl_cons, ih]
    simp only [Db.expire, Table.updateWhere, List.map_map]
    refine map_congr_left fun row _ => ?_
    simp only [Function.comp_apply, expireRow, mem_cons, decide_eq_true_eq]
    split_ifs <;> simp_all

theorem foldl_expire (db : Db) (terminalAt : Int) (fingerprints : List CertificateFingerprint) :
    (fingerprints.foldl (Db.expire · terminalAt) db).snapshot = db.snapshot ∧
      (fingerprints.foldl (Db.expire · terminalAt) db).tokens = db.tokens :=
  foldlRecOn fingerprints _ (motive := fun after : Db =>
    after.snapshot = db.snapshot ∧ after.tokens = db.tokens) ⟨rfl, rfl⟩ fun _ h _ _ => h

theorem reconcileExpired_effect :
    HasEffect sha256 db (.reconcileExpired nowUnix)
      (run sha256 db (.reconcileExpired nowUnix)) := by
  simp only [run, reconcileExpired]
  refine hasEffect_transact fun result hBody => ?_
  obtain ⟨_, hTime, h⟩ := bind_eq_ok.mp hBody
  obtain rfl := toI64_eq_ok hTime
  obtain ⟨current, hLoad, h⟩ := bind_eq_ok.mp h
  split at h
  · cases h
    exact .unchanged
  obtain ⟨⟨version, _, updated⟩, hUpdate, h⟩ := bind_eq_ok.mp h
  cases h
  obtain ⟨snapshot, hNew, hLoaded, ⟨hTokens, hCredentials⟩, hNewer⟩ :=
    updateGrants_eq_ok hLoad hUpdate
  obtain ⟨hSnapshot, hSame⟩ := foldl_expire updated nowUnix (expiredFingerprints db nowUnix)
  have hLoaded' : loadSnapshot sha256
      ((expiredFingerprints db nowUnix).foldl (Db.expire · nowUnix) updated) =
        .ok ⟨version, snapshot⟩ := by
    rw [← hLoaded, loadSnapshot, loadSnapshot, hSnapshot]
  refine .edits hLoad hLoaded' (by rw [Prod.map_snd, id, hSnapshot]; exact hNewer) (.reconciled
    (?_ : Expires db current nowUnix (expiredFingerprints db nowUnix) _ _))
  refine ⟨?_, ?_, hSame.trans hTokens, ?_⟩
  · intro _ hFingerprint
    have hFiltered := mem_of_mem_take hFingerprint
    rw [mem_insertionSort, mem_map] at hFiltered
    obtain ⟨row, hRow, rfl⟩ := hFiltered
    simp only [mem_filter, decide_eq_true_eq] at hRow
    exact ⟨row, hRow.1, rfl, hRow.2⟩
  · exact (rows_foldl_expire _ _).trans (by rw [hCredentials])
  · exact lookup_of_new_filter (· ∉ expiredFingerprints db nowUnix) hNew

/-- **Every operation has one of the effects.** -/
theorem run_hasEffect (db : Db) (op : Op) : HasEffect sha256 db op (run sha256 db op) := by
  cases op with
  | createBootstrapToken => exact createBootstrapToken_effect
  | validateToken | preflightIssuance => exact .unchanged
  | commitIssuance => exact commitIssuance_effect
  | activate => exact activate_effect
  | revokeAgent => exact revokeAgent_effect
  | reconcileExpired => exact reconcileExpired_effect

/-- A snapshot that loads does so after every operation. -/
theorem run_effect (hLoad : loadSnapshot sha256 db = .ok current) (op : Op) :
    ∃ current', loadSnapshot sha256 (run sha256 db op).2 = .ok current' ∧
      Effect db current op (run sha256 db op).1 (run sha256 db op).2 current' := by
  cases run_hasEffect db op with
  | aside _ hSnapshot hEffect =>
    exact ⟨current, by rw [← hLoad, loadSnapshot, loadSnapshot, hSnapshot], hEffect current⟩
  | edits hLoaded hLoad' _ hEffect =>
    obtain rfl := Except.ok.inj (hLoad.symm.trans hLoaded)
    exact ⟨_, hLoad', hEffect⟩

/-- As long as no snapshot loads, all that can happen is a new token. -/
theorem run_unloaded (hUnloaded : ∀ current, loadSnapshot sha256 db ≠ .ok current) (op : Op) :
    (run sha256 db op).2.credentials = db.credentials ∧
      (run sha256 db op).2.snapshot = db.snapshot ∧
      ∀ current, Effect db current op (run sha256 db op).1 (run sha256 db op).2 current := by
  cases run_hasEffect db op with
  | aside hCredentials hSnapshot hEffect => exact ⟨hCredentials, hSnapshot, hEffect⟩
  | edits hLoaded => exact absurd hLoaded (hUnloaded _)

/-! ## Authenticated tokens -/

variable {tokenHash : TokenHash} {previous : CertificateFingerprint}

theorem authenticateToken_bootstrap
    (h : authenticateToken db tokenHash agentId tunnelId nowUnix = .ok .bootstrap) :
    ∃ token ∈ db.tokens.rows, token.tokenHash = tokenHash ∧ token.agentId = agentId ∧
      token.tunnelId = tunnelId ∧ token.revoked = false ∧ token.consumed = false := by
  unfold authenticateToken at h
  split at h
  · rename_i token hFind
    have hHash : token.tokenHash = tokenHash := by simpa using find?_some hFind
    split_ifs at h with hIdentity hRevoked hConsumed
    rw [not_or, not_not, not_not] at hIdentity
    exact ⟨token, mem_of_find?_eq_some hFind, hHash, hIdentity.1, hIdentity.2,
      Bool.eq_false_iff.mpr hRevoked, Bool.eq_false_iff.mpr hConsumed⟩
  · split at h
    · cases h
    · split_ifs at h
      cases h

/-- A renewal token is no bootstrap token, belongs to an active credential and to no
revoked one. -/
theorem authenticateToken_renewal
    (h : authenticateToken db tokenHash agentId tunnelId nowUnix = .ok (.renewal previous)) :
    (∀ token ∈ db.tokens.rows, token.tokenHash ≠ tokenHash) ∧
      (∀ row ∈ db.credentials.rows, row.renewalTokenHash = tokenHash → row.state ≠ .revoked) ∧
      ∃ row ∈ db.credentials.rows, row.fingerprint = previous ∧ row.agentId = agentId ∧
        row.tunnelId = tunnelId ∧ row.renewalTokenHash = tokenHash ∧ row.state = .active := by
  unfold authenticateToken at h
  split at h
  · split_ifs at h
    cases h
  rename_i hNone
  split at h
  · cases h
  rename_i row hFind
  split_ifs at h with hIdentity hRevoked
  cases h
  rw [not_or, not_not, not_not] at hIdentity
  simp only [findRenewal, Option.or_eq_some_iff, find?_eq_none, mem_filter,
    decide_eq_true_eq, and_imp] at hFind
  refine ⟨fun token hToken => by simpa using find?_eq_none.mp hNone token hToken, ?_⟩
  rcases hFind with hFind | ⟨hNoRevoked, hFind⟩
  · exact absurd (by simpa using find?_some hFind) hRevoked
  · have hState : row.state = .active := by simpa using find?_some hFind
    have hMem := mem_of_find?_eq_some hFind
    simp only [mem_filter, decide_eq_true_eq] at hMem
    exact ⟨hNoRevoked, row, hMem.1, rfl, hIdentity.1, hIdentity.2, hMem.2, hState⟩

/-! ## What an effect can add -/

/-- The row of an issuance. -/
abbrev IssuanceCandidate.pendingRow (candidate : IssuanceCandidate) (version : SnapshotVersion)
    (kind : PresentedTokenKind) : Credential :=
  candidate.row candidate.notAfterUnix candidate.activationDeadlineUnix version kind.previous

theorem Issues.mem_rows (h : Issues db current candidate nowUnix kind db' current') :
    row ∈ db'.credentials.rows ↔
      row ∈ db.credentials.rows ∨ row = candidate.pendingRow current'.version kind :=
  Table.mem_insert h.inserted

theorem Issues.apart (h : Issues db current candidate nowUnix kind db' current')
    (hRow : row ∈ db.credentials.rows) :
    row.fingerprint ≠ candidate.fingerprint ∧ row.requestId ≠ candidate.requestId :=
  not_or.mp ((Table.insert_eq_some.mp h.inserted).1 row hRow)

theorem eq_of_fingerprint {row row' : Credential} (hRow : row ∈ db.credentials.rows)
    (hRow' : row' ∈ db.credentials.rows) (h : row.fingerprint = row'.fingerprint) : row = row' :=
  Table.eq_of_clash hRow hRow' (.inl h)

/-- The states with a grant. -/
def CredentialState.Live (state : CredentialState) : Prop := state = .pending ∨ state = .active

instance : DecidablePred CredentialState.Live := fun state =>
  inferInstanceAs (Decidable (state = .pending ∨ state = .active))

theorem isLiveOf_iff {agentId : AgentId} : row.isLiveOf agentId tunnelId = true ↔
      (row.agentId = agentId ∧ row.tunnelId = tunnelId) ∧ row.state.Live := by
  simp [Credential.isLiveOf, CredentialState.Live, and_assoc]

/-- After a revocation no row of the Agent's tunnel is live. -/
theorem Revokes.dead {agentId : AgentId} {tunnelId : TunnelId}
    (h : Revokes db current agentId tunnelId nowUnix db' current')
    (hRow : row ∈ db'.credentials.rows) (hAgent : row.agentId = agentId)
    (hTunnel : row.tunnelId = tunnelId) : ¬row.state.Live := by
  intro hLive
  obtain ⟨_, _, rfl⟩ := mem_map.mp (h.rows ▸ hRow)
  rw [revokeRow_issued] at hAgent hTunnel
  unfold revokeRow at hLive
  split_ifs at hLive with hOf
  · exact absurd (show CredentialState.revoked.Live from hLive) (by decide)
  · exact hOf (isLiveOf_iff.mpr ⟨⟨hAgent, hTunnel⟩, hLive⟩)

/-- What an operation can do to a row. -/
inductive RowChange (db : Db) (op : Op) (reply : Outcome Reply) (db' : Db) (row : Credential) :
    Credential → Prop
  | same : RowChange db op reply db' row row
  | activated {nowUnix : Nat} {version : SnapshotVersion} (pending : row.state = .pending)
      (op_eq : op = .activate row.requestId row.renewalTokenHash row.fingerprint nowUnix)
      (reply_eq : reply = .ok (.activated version)) :
      RowChange db op reply db' row { row with state := .active }
  | retired {successor : Credential} {nowUnix : Nat} (mem : successor ∈ db.credentials.rows)
      (pending : successor.state = .pending)
      (previous : successor.previousFingerprint = some row.fingerprint)
      (op_eq : op = .activate successor.requestId successor.renewalTokenHash
        successor.fingerprint nowUnix)
      (mem' : { successor with state := .active } ∈ db'.credentials.rows) :
      RowChange db op reply db' row { row with state := .retired }
  | expired {nowUnix : Nat} (pending : row.state = .pending)
      (due : row.activationDeadline ≤ nowUnix)
      (op_eq : op = .reconcileExpired nowUnix ∨
        op = .activate row.requestId row.renewalTokenHash row.fingerprint nowUnix) :
      RowChange db op reply db' row
        { row with state := .expired, terminalAt := some (nowUnix : Int) }
  | revoked {nowUnix : Nat} (live : row.state.Live)
      (op_eq : op = .revokeAgent row.agentId row.tunnelId nowUnix) :
      RowChange db op reply db' row
        { row with state := .revoked, terminalAt := some (nowUnix : Int) }

theorem RowChange.issued {row' : Credential} (h : RowChange db op reply db' row row') :
    row'.toIssuedCredential = row.toIssuedCredential := by
  cases h <;> rfl

/-- Rows that expire are due, and the operation is the one that expires them. -/
theorem Expires.rowChange {fingerprints : List CertificateFingerprint}
    (h : Expires db current nowUnix fingerprints db' current') (hRow : row ∈ db.credentials.rows)
    (hOp : row.fingerprint ∈ fingerprints → op = .reconcileExpired nowUnix ∨
      op = .activate row.requestId row.renewalTokenHash row.fingerprint nowUnix) :
    RowChange db op reply db' row (expireRow nowUnix fingerprints row) := by
  unfold expireRow
  split_ifs with hExpires
  · obtain ⟨_, hDue, hFingerprint, hPending, hDeadline⟩ := h.pending _ hExpires.1
    obtain rfl := eq_of_fingerprint hDue hRow hFingerprint
    exact .expired hPending hDeadline (hOp hExpires.1)
  · exact .same

/-- The columns that are written once, for all rows. -/
def Db.issued (db : Db) : List IssuedCredential :=
  db.credentials.rows.map (·.toIssuedCredential)

theorem Issues.issued (h : Issues db current candidate nowUnix kind db' current') : db'.issued =
      db.issued ++ [(candidate.pendingRow current'.version kind).toIssuedCredential] := by
  simp only [Db.issued, (Table.insert_eq_some.mp h.inserted).2, map_append, map_cons,
    map_nil]

variable {issued : IssuedCredential} {token : BootstrapToken}

theorem mem_issued :
    issued ∈ db.issued ↔ ∃ row ∈ db.credentials.rows, row.toIssuedCredential = issued :=
  mem_map

theorem Issues.mem_issued_iff (h : Issues db current candidate nowUnix kind db' current') :
    issued ∈ db'.issued ↔ issued ∈ db.issued ∨
      issued = (candidate.pendingRow current'.version kind).toIssuedCredential := by
  rw [h.issued, mem_append, mem_singleton]

/-- What can become of a token: its flags are raised. -/
structure Ages (token token' : BootstrapToken) : Prop where
  tokenHash : token'.tokenHash = token.tokenHash
  agentId : token'.agentId = token.agentId
  tunnelId : token'.tunnelId = token.tunnelId
  consumed : token.consumed = true → token'.consumed = true
  revoked : token.revoked = true → token'.revoked = true

theorem Ages.refl (token : BootstrapToken) : Ages token token := ⟨rfl, rfl, rfl, id, id⟩

section

variable (h : Effect db current op reply db' current')
include h

/-- An operation changes the rows one by one, or adds one. -/
theorem Effect.rows_cases :
    (∃ f, db'.credentials.rows = db.credentials.rows.map f ∧
      ∀ row ∈ db.credentials.rows, RowChange db op reply db' row (f row)) ∨
    ∃ candidate nowUnix kind, op = .commitIssuance candidate nowUnix ∧
      Issues db current candidate nowUnix kind db' current' := by
  cases h with
  | unchanged => exact .inl ⟨id, (List.map_id _).symm, fun _ _ => .same⟩
  | created _ hSame => exact .inl ⟨id, by rw [hSame, List.map_id], fun _ _ => .same⟩
  | issued hIssues => exact .inr ⟨_, _, _, rfl, hIssues⟩
  | @activated activated _ _ _ hActivates =>
    have hActive : { activated with state := .active } ∈ db'.credentials.rows := by
      rw [hActivates.rows]
      exact mem_map.mpr ⟨activated, hActivates.mem, by rw [activateRow, if_pos rfl]⟩
    refine .inl ⟨_, hActivates.rows, fun row hRow => ?_⟩
    unfold activateRow
    split_ifs with hSelf hPrevious
    · obtain rfl := eq_of_fingerprint hRow hActivates.mem hSelf
      exact .activated hActivates.pending rfl rfl
    · exact .retired hActivates.mem hActivates.pending hPrevious.symm rfl hActive
    · exact .same
  | overdue hMem hExpires =>
    refine .inl ⟨_, hExpires.rows, fun row hRow => hExpires.rowChange hRow fun hIn => ?_⟩
    obtain rfl := eq_of_fingerprint hRow hMem (mem_singleton.mp hIn)
    exact .inr rfl
  | revoked hRevokes =>
    refine .inl ⟨_, hRevokes.rows, fun row _ => ?_⟩
    unfold revokeRow
    split_ifs with hOf
    · obtain ⟨⟨rfl, rfl⟩, hLive⟩ := isLiveOf_iff.mp hOf
      exact .revoked hLive rfl
    · exact .same
  | reconciled hExpires =>
    exact .inl ⟨_, hExpires.rows, fun row hRow => hExpires.rowChange hRow fun _ => .inl rfl⟩

/-- What a row of the new database was before. -/
theorem Effect.row_before (hRow : row ∈ db'.credentials.rows) :
    (∃ old ∈ db.credentials.rows, RowChange db op reply db' old row) ∨
      ∃ candidate nowUnix kind, op = .commitIssuance candidate nowUnix ∧
        Issues db current candidate nowUnix kind db' current' ∧
        row = candidate.pendingRow current'.version kind := by
  rcases h.rows_cases with ⟨_, hRows, hChange⟩ | ⟨candidate, now, kind, hOp, hIssues⟩
  · rw [hRows] at hRow
    obtain ⟨old, hOld, rfl⟩ := mem_map.mp hRow
    exact .inl ⟨old, hOld, hChange old hOld⟩
  · rcases hIssues.mem_rows.mp hRow with hOld | rfl
    · exact .inl ⟨row, hOld, .same⟩
    · exact .inr ⟨candidate, now, kind, hOp, hIssues, rfl⟩

/-- What becomes of a row of the old database. -/
theorem Effect.row_after (hRow : row ∈ db.credentials.rows) :
    ∃ new ∈ db'.credentials.rows, RowChange db op reply db' row new := by
  rcases h.rows_cases with ⟨f, hRows, hChange⟩ | ⟨_, _, _, -, hIssues⟩
  · exact ⟨f row, hRows ▸ mem_map_of_mem hRow, hChange row hRow⟩
  · exact ⟨row, hIssues.mem_rows.mpr (.inl hRow), .same⟩

/-- Only an issuance adds a credential. -/
theorem Effect.issued_cases :
    db'.issued = db.issued ∨ ∃ candidate nowUnix kind, op = .commitIssuance candidate nowUnix ∧
        Issues db current candidate nowUnix kind db' current' := by
  rcases h.rows_cases with ⟨_, hRows, hChange⟩ | hIssues
  · left
    rw [Db.issued, hRows, List.map_map]
    exact map_congr_left fun row hRow => (hChange row hRow).issued
  · exact .inr hIssues

/-- What is issued after an operation was issued before, or by it. -/
theorem Effect.issued_before (hIssued : issued ∈ db'.issued) :
    issued ∈ db.issued ∨ ∃ candidate nowUnix kind, op = .commitIssuance candidate nowUnix ∧
      Issues db current candidate nowUnix kind db' current' ∧
      issued = (candidate.pendingRow current'.version kind).toIssuedCredential := by
  rcases h.issued_cases with hSame | ⟨candidate, nowUnix, kind, hOp, hIssues⟩
  · exact .inl (hSame ▸ hIssued)
  · exact (hIssues.mem_issued_iff.mp hIssued).imp_right fun hNew =>
      ⟨candidate, nowUnix, kind, hOp, hIssues, hNew⟩

/-- Issued columns are there for ever. -/
theorem Effect.issued_mono (hIssued : issued ∈ db.issued) :
    issued ∈ db'.issued := by
  rcases h.issued_cases with hSame | ⟨_, _, _, -, hIssues⟩
  · exact hSame ▸ hIssued
  · exact hIssues.mem_issued_iff.mpr (.inl hIssued)

/-- The tokens after an effect are the old ones, aged, and possibly a created one. -/
theorem Effect.tokens_cases :
    (∃ f, db'.tokens.rows = db.tokens.rows.map f ∧ ∀ token, Ages token (f token)) ∨
      ∃ token expiresAtUnix, op = .createBootstrapToken token.tokenHash token.agentId
          token.tunnelId expiresAtUnix ∧
        token.consumed = false ∧ token.revoked = false ∧
        (∀ old ∈ db.tokens.rows, old.tokenHash ≠ token.tokenHash) ∧
        db'.tokens.rows = db.tokens.rows ++ [token] ∧ db'.issued = db.issued := by
  have hSame : db'.tokens = db.tokens →
      ∃ f, db'.tokens.rows = db.tokens.rows.map f ∧ ∀ token, Ages token (f token) :=
    fun hTokens => ⟨id, by rw [hTokens, List.map_id], Ages.refl⟩
  cases h with
  | unchanged => exact .inl (hSame rfl)
  | @created tokenHash agentId tunnelId expiresAtUnix _ hInsert hCredentials =>
    obtain ⟨hFresh, hRows⟩ := Table.insert_eq_some.mp hInsert
    exact .inr ⟨⟨tokenHash, agentId, tunnelId, expiresAtUnix, false, false⟩, expiresAtUnix, rfl,
      rfl, rfl, hFresh, hRows, by rw [Db.issued, Db.issued, hCredentials]⟩
  | issued hIssues =>
    refine .inl ?_
    have hTokens := hIssues.tokens
    split_ifs at hTokens
    · refine ⟨_, congrArg Table.rows hTokens, fun token => ?_⟩
      split_ifs
      · exact ⟨rfl, rfl, rfl, fun _ => rfl, id⟩
      · exact .refl token
    · exact hSame hTokens
  | activated hActivates => exact .inl (hSame hActivates.tokens)
  | overdue _ hExpires | reconciled hExpires => exact .inl (hSame hExpires.tokens)
  | revoked hRevokes =>
    refine .inl ⟨_, hRevokes.tokens, fun token => ?_⟩
    unfold revokeToken
    split_ifs
    · exact ⟨rfl, rfl, rfl, fun _ => rfl, fun _ => rfl⟩
    · exact .refl token

theorem Effect.tokens_mono (hToken : token ∈ db.tokens.rows) :
    ∃ token' ∈ db'.tokens.rows, Ages token token' := by
  rcases h.tokens_cases with ⟨f, hRows, hAges⟩ | ⟨_, _, -, -, -, -, hRows, -⟩
  · exact ⟨f token, hRows ▸ mem_map_of_mem hToken, hAges token⟩
  · exact ⟨token, hRows ▸ mem_append_left _ hToken, .refl token⟩

/-- A token was there before and has aged, or it was created under a hash of its own. -/
theorem Effect.token_before (hToken : token ∈ db'.tokens.rows) :
    (∃ old ∈ db.tokens.rows, Ages old token) ∨
      (∃ expires, op = .createBootstrapToken token.tokenHash token.agentId token.tunnelId expires) ∧
        ∀ old ∈ db.tokens.rows, old.tokenHash ≠ token.tokenHash := by
  rcases h.tokens_cases with ⟨_, hRows, hAges⟩ | ⟨created, expires, hOp, -, -, hApart, hRows, -⟩
  · obtain ⟨old, hOld, rfl⟩ := mem_map.mp (hRows ▸ hToken)
    exact .inl ⟨old, hOld, hAges old⟩
  · rcases mem_append.mp (hRows ▸ hToken) with hOld | hNew
    · exact .inl ⟨token, hOld, .refl token⟩
    · obtain rfl := mem_singleton.mp hNew
      exact .inr ⟨⟨expires, hOp⟩, hApart⟩

end

end TunnelProxy.Control.Enrollment
