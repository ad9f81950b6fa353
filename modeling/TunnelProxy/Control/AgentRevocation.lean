import TunnelProxy.Control.CanonicalForm
import TunnelProxy.Control.Credentials

/-!
# What a revocation leaves

`revoke_agent` takes one tunnel from the grants of one Agent, and drops the grants that have
no tunnel left. The second part looks at every grant of the snapshot: one that had no tunnel
before is dropped as well, whoever it belongs to, and the snapshot counts as changed
(`revocation_drops_idle_grant`). An import can create such grants. Which of them keep a
revocation from being exact, and that nothing else does, says `revocation_exact`.

* `mem_removeAgentTunnel` — the grants that are left
* `removeAgentTunnel_ne_iff` — when the edit is one
* `snapshotDigest_withoutTunnel` — a smaller snapshot can still be encoded
* `revokeAgent_eq` — the call, as marking rows and editing the snapshot
* `revokeAgent_edits` — what a call leaves, whatever the snapshot
-/

namespace TunnelProxy.Control.Enrollment

open Std Common Transition AuthorizationSnapshot BigEndian List

variable {sha256 : Hash} {db db' : Db} {current : VersionedAuthorizationSnapshot}
  {snapshot : AuthorizationSnapshot} {grants : List AgentGrant} {agentId : AgentId}
  {tunnelId : TunnelId} {nowUnix : Nat} {grant grant' : AgentGrant}

/-! ## The grants that are left -/

/-- The certificate is granted the tunnel, as a tunnel of the Agent. -/
def HasTunnel (snapshot : AuthorizationSnapshot) (certificate : CertificateFingerprint)
    (agentId : AgentId) (tunnel : TunnelGrant) : Prop :=
  ∃ grant ∈ snapshot.grants, grant.certificate = certificate ∧ grant.agentId = agentId ∧
    tunnel ∈ grant.tunnels

/-- Some grant of the Agent contains the tunnel. -/
def GrantsTunnel (snapshot : AuthorizationSnapshot) (agentId : AgentId) (tunnelId : TunnelId) :
    Prop :=
  ∃ grant ∈ snapshot.grants, grant.agentId = agentId ∧
    ∃ tunnel ∈ grant.tunnels, tunnel.tunnelId = tunnelId

/-- No other Agent has a grant without a tunnel, and neither has the Agent, unless one of its
grants contains the tunnel. -/
def NoneIdle (snapshot : AuthorizationSnapshot) (agentId : AgentId) (tunnelId : TunnelId) : Prop :=
  (∀ grant ∈ snapshot.grants, grant.agentId ≠ agentId → grant.tunnels ≠ []) ∧
    (GrantsTunnel snapshot agentId tunnelId ∨
      ∀ grant ∈ snapshot.grants, grant.agentId = agentId → grant.tunnels ≠ [])

def keptTunnels (agentId : AgentId) (tunnelId : TunnelId) (grant : AgentGrant) : List TunnelGrant :=
  if grant.agentId = agentId then grant.tunnels.filter (·.tunnelId ≠ tunnelId) else grant.tunnels

/-- The body of the loop of `remove_agent_tunnel`. -/
def dropTunnel (agentId : AgentId) (tunnelId : TunnelId) (grant : AgentGrant) : Option AgentGrant :=
  if (keptTunnels agentId tunnelId grant).isEmpty then none
  else some { grant with tunnels := keptTunnels agentId tunnelId grant }

theorem removeAgentTunnel_eq :
    removeAgentTunnel grants agentId tunnelId = grants.filterMap (dropTunnel agentId tunnelId) := by
  refine filterMap_congr fun grant _ => ?_
  unfold dropTunnel keptTunnels
  dsimp only
  split_ifs <;> rfl

theorem dropTunnel_eq_some : dropTunnel agentId tunnelId grant = some grant' ↔
      { grant with tunnels := keptTunnels agentId tunnelId grant } = grant' ∧
        grant'.tunnels ≠ [] := by
  unfold dropTunnel
  split_ifs with hEmpty
  · refine ⟨nofun, ?_⟩
    rintro ⟨rfl, hSome⟩
    exact absurd (isEmpty_iff.mp hEmpty) hSome
  · rw [Option.some.injEq]
    constructor
    · rintro rfl
      exact ⟨rfl, fun h => hEmpty (isEmpty_iff.mpr h)⟩
    · exact fun h => h.1

/-- A grant that is left is one of before without the tunnel, and has another. -/
theorem mem_removeAgentTunnel : grant' ∈ removeAgentTunnel grants agentId tunnelId ↔
      ∃ grant ∈ grants, { grant with tunnels := keptTunnels agentId tunnelId grant } = grant' ∧
        grant'.tunnels ≠ [] := by
  simp only [removeAgentTunnel_eq, mem_filterMap, dropTunnel_eq_some]

theorem mem_keptTunnels {tunnel : TunnelGrant} : tunnel ∈ keptTunnels agentId tunnelId grant ↔
      tunnel ∈ grant.tunnels ∧ ¬(grant.agentId = agentId ∧ tunnel.tunnelId = tunnelId) := by
  unfold keptTunnels
  split_ifs with hAgent <;> simp [hAgent]

theorem dropTunnel_eq_self (hOccupied : grant.tunnels ≠ [])
    (h : grant.agentId = agentId → ∀ tunnel ∈ grant.tunnels, tunnel.tunnelId ≠ tunnelId) :
    dropTunnel agentId tunnelId grant = some grant := by
  have hKept : keptTunnels agentId tunnelId grant = grant.tunnels := by
    unfold keptTunnels
    split_ifs with hAgent
    · exact filter_eq_self.mpr fun tunnel hTunnel => decide_eq_true (h hAgent tunnel hTunnel)
    · rfl
  exact dropTunnel_eq_some.mpr ⟨by rw [hKept], hOccupied⟩

/-- The edit changes the list if and only if some grant of the Agent contains the tunnel, or
some grant of any Agent has none. -/
theorem removeAgentTunnel_ne_iff :
    removeAgentTunnel snapshot.grants agentId tunnelId ≠ snapshot.grants ↔
      GrantsTunnel snapshot agentId tunnelId ∨ ∃ grant ∈ snapshot.grants, grant.tunnels = [] := by
  constructor
  · contrapose!
    rintro ⟨hNone, hOccupied⟩
    have hSame : ∀ grant ∈ snapshot.grants, dropTunnel agentId tunnelId grant = some grant := by
      refine fun grant hGrant => dropTunnel_eq_self (hOccupied grant hGrant) ?_
      exact fun hAgent tunnel hTunnel hId => hNone ⟨grant, hGrant, hAgent, tunnel, hTunnel, hId⟩
    rw [removeAgentTunnel_eq, filterMap_congr hSame, filterMap_some]
  · rintro (⟨_, hGrant, hAgent, _, hTunnel, hId⟩ | ⟨_, hGrant, hEmpty⟩) hSame
    · rw [← hSame] at hGrant
      obtain ⟨_, -, rfl, -⟩ := mem_removeAgentTunnel.mp hGrant
      exact (mem_keptTunnels.mp hTunnel).2 ⟨hAgent, hId⟩
    · rw [← hSame] at hGrant
      obtain ⟨_, -, -, hSome⟩ := mem_removeAgentTunnel.mp hGrant
      exact hSome hEmpty

/-- The grants of other Agents stay, in their order, if and only if they all have tunnels. -/
theorem filter_removeAgentTunnel :
    (removeAgentTunnel grants agentId tunnelId).filter (·.agentId ≠ agentId) =
        grants.filter (·.agentId ≠ agentId) ↔
      ∀ grant ∈ grants, grant.agentId ≠ agentId → grant.tunnels ≠ [] := by
  constructor
  · intro hSame grant hGrant hAgent
    have hMem : grant ∈ grants.filter (·.agentId ≠ agentId) :=
      mem_filter.mpr ⟨hGrant, decide_eq_true hAgent⟩
    rw [← hSame] at hMem
    obtain ⟨_, -, -, hSome⟩ := mem_removeAgentTunnel.mp (mem_filter.mp hMem).1
    exact hSome
  · intro hOccupied
    rw [removeAgentTunnel_eq, filter_filterMap, ← filterMap_eq_filter]
    refine filterMap_congr fun grant hGrant => ?_
    by_cases hAgent : grant.agentId = agentId
    · have hDropped : ∀ grant', dropTunnel agentId tunnelId grant = some grant' →
          grant'.agentId = agentId := by
        intro _ h
        rw [← (dropTunnel_eq_some.mp h).1]
        exact hAgent
      cases h : dropTunnel agentId tunnelId grant with
      | none => simp [Option.guard, hAgent]
      | some grant' => simp [Option.guard, hAgent, hDropped grant' h]
    · rw [dropTunnel_eq_self (hOccupied grant hGrant hAgent) fun h => absurd h hAgent]
      rfl

/-- Others lose nothing and the edit is one for the tunnel's sake alone, exactly when no grant
is dropped for having been without a tunnel. -/
theorem noneIdle_iff : NoneIdle snapshot agentId tunnelId ↔
    (removeAgentTunnel snapshot.grants agentId tunnelId).filter (·.agentId ≠ agentId) =
        snapshot.grants.filter (·.agentId ≠ agentId) ∧
      (removeAgentTunnel snapshot.grants agentId tunnelId ≠ snapshot.grants ↔
        GrantsTunnel snapshot agentId tunnelId) := by
  rw [filter_removeAgentTunnel, removeAgentTunnel_ne_iff, NoneIdle]
  refine and_congr_right fun hOthers => ?_
  constructor
  · rintro (hGrants | hOwn)
    · exact iff_of_true (.inl hGrants) hGrants
    · refine or_iff_left ?_
      rintro ⟨grant, hGrant, hEmpty⟩
      by_cases hAgent : grant.agentId = agentId
      · exact hOwn grant hGrant hAgent hEmpty
      · exact hOthers grant hGrant hAgent hEmpty
  · intro hExact
    refine or_iff_not_imp_left.mpr fun hNone grant hGrant _ hEmpty => ?_
    exact hNone (hExact.mp (.inr ⟨grant, hGrant, hEmpty⟩))

/-! ## The snapshot that is left -/

theorem mem_grants_withoutTunnel :
    grant' ∈ (snapshotWithoutTunnel snapshot agentId tunnelId).grants ↔ ∃ grant ∈ snapshot.grants,
        { grant with tunnels := keptTunnels agentId tunnelId grant } = grant' ∧
          grant'.tunnels ≠ [] := by
  rw [← removeAgentTunnel_grants, mem_removeAgentTunnel]

theorem not_grantsTunnel_withoutTunnel :
    ¬GrantsTunnel (snapshotWithoutTunnel snapshot agentId tunnelId) agentId tunnelId := by
  rintro ⟨_, hGrant, hAgent, _, hTunnel, hId⟩
  obtain ⟨_, -, rfl, -⟩ := mem_grants_withoutTunnel.mp hGrant
  exact (mem_keptTunnels.mp hTunnel).2 ⟨hAgent, hId⟩

theorem not_authorized_withoutTunnel (certificate : CertificateFingerprint) :
    (snapshotWithoutTunnel snapshot agentId tunnelId).authorize certificate agentId tunnelId ≠
      .ok () := by
  intro h
  -- what is authorized is granted
  obtain ⟨agent, hAgent, hId, hTunnel⟩ := authorize_eq_ok.mp h
  have hEntry := ExtTreeMap.mem_toList_iff_getElem?_eq_some.mpr hTunnel
  exact not_grantsTunnel_withoutTunnel ⟨grantOf (certificate, agent),
    mem_grants.mpr ⟨agent, hAgent, rfl⟩, hId, ⟨tunnelId, .enabled⟩,
    mem_map.mpr ⟨_, hEntry, rfl⟩, rfl⟩

/-- The other tunnels stay. -/
theorem hasTunnel_withoutTunnel {certificate : CertificateFingerprint} {tunnel : TunnelGrant}
    (hOther : tunnel.tunnelId ≠ tunnelId) :
    HasTunnel (snapshotWithoutTunnel snapshot agentId tunnelId) certificate agentId tunnel ↔
      HasTunnel snapshot certificate agentId tunnel := by
  constructor
  · rintro ⟨_, hGrant', hCertificate, hAgent, hTunnel⟩
    obtain ⟨grant, hGrant, rfl, -⟩ := mem_grants_withoutTunnel.mp hGrant'
    exact ⟨grant, hGrant, hCertificate, hAgent, (mem_keptTunnels.mp hTunnel).1⟩
  · rintro ⟨grant, hGrant, hCertificate, hAgent, hTunnel⟩
    have hKept : tunnel ∈ keptTunnels agentId tunnelId grant :=
      mem_keptTunnels.mpr ⟨hTunnel, fun h => hOther h.2⟩
    exact ⟨_, mem_grants_withoutTunnel.mpr ⟨grant, hGrant, rfl, ne_nil_of_mem hKept⟩,
      hCertificate, hAgent, hKept⟩

/-- A second edit is none. -/
theorem removeAgentTunnel_again :
    removeAgentTunnel (snapshotWithoutTunnel snapshot agentId tunnelId).grants agentId tunnelId =
      (snapshotWithoutTunnel snapshot agentId tunnelId).grants := by
  by_contra hNe
  rcases removeAgentTunnel_ne_iff.mp hNe with hGrants | ⟨_, hGrant, hEmpty⟩
  · exact not_grantsTunnel_withoutTunnel hGrants
  · obtain ⟨_, -, -, hSome⟩ := mem_grants_withoutTunnel.mp hGrant
    exact hSome hEmpty

/-! ## Its encoding -/

theorem sublist_keptTunnels (grant : AgentGrant) :
    (keptTunnels agentId tunnelId grant).Sublist grant.tunnels := by
  unfold keptTunnels
  split_ifs
  · exact filter_sublist
  · exact .refl _

/-- Fewer tunnels after a shorter output pass the same checks. -/
theorem encodeTunnels_sublist {tunnels tunnels' : List TunnelGrant} (h : tunnels'.Sublist tunnels)
    {output output' bytes : List UInt8} (hOutput : output'.length ≤ output.length)
    (hBytes : encodeTunnels output tunnels = .ok bytes) :
    ∃ bytes', encodeTunnels output' tunnels' = .ok bytes' ∧ bytes'.length ≤ bytes.length := by
  induction h generalizing output output' with
  | slnil =>
    cases hBytes
    exact ⟨output', rfl, hOutput⟩
  | cons tunnel _ ih =>
    obtain ⟨-, hRest⟩ := ensureEncodedSize_bind.mp hBytes
    refine ih (hOutput.trans ?_) hRest
    simp only [pushId, length_append]
    omega
  | cons_cons tunnel _ ih =>
    obtain ⟨hSize, hRest⟩ := ensureEncodedSize_bind.mp hBytes
    have hLe : (pushId output' tunnel.tunnelId.text ++ [statusByte tunnel.status]).length ≤
        (pushId output tunnel.tunnelId.text ++ [statusByte tunnel.status]).length := by
      simp only [pushId, length_append]
      omega
    obtain ⟨bytes', hBytes', hLength⟩ := ih hLe hRest
    exact ⟨bytes', ensureEncodedSize_bind.mpr ⟨hLe.trans hSize, hBytes'⟩, hLength⟩

/-- The grants that are left pass the checks that all of them have passed. -/
theorem encodeGrants_dropTunnel {output output' bytes : List UInt8}
    (hOutput : output'.length ≤ output.length) (hBytes : encodeGrants output grants = .ok bytes) :
    ∃ bytes', encodeGrants output' (grants.filterMap (dropTunnel agentId tunnelId)) =
      .ok bytes' := by
  induction grants generalizing output output' with
  | nil => exact ⟨output', rfl⟩
  | cons grant rest ih =>
    obtain ⟨hSize, h⟩ := ensureEncodedSize_bind.mp hBytes
    split_ifs at h with hCount
    · cases h
    obtain ⟨middle, hMiddle, hRest⟩ := bind_eq_ok.mp h
    have hKept := @sublist_keptTunnels agentId tunnelId grant
    cases hDrop : dropTunnel agentId tunnelId grant with
    | none =>
      rw [filterMap_cons_none hDrop]
      refine ih (hOutput.trans ?_) hRest
      rw [encodeTunnels_eq_ok hMiddle]
      simp only [pushId, length_append]
      omega
    | some grant' =>
      obtain ⟨rfl, -⟩ := dropTunnel_eq_some.mp hDrop
      rw [filterMap_cons_some hDrop]
      have hLe : (pushId (output' ++ grant.certificate.bytes) grant.agentId.text).length ≤
          (pushId (output ++ grant.certificate.bytes) grant.agentId.text).length := by
        simp only [pushId, length_append]
        omega
      have hCounted : (pushId (output' ++ grant.certificate.bytes) grant.agentId.text ++
            be 2 (keptTunnels agentId tunnelId grant).length).length ≤
          (pushId (output ++ grant.certificate.bytes) grant.agentId.text ++
            be 2 grant.tunnels.length).length := by
        simpa only [length_append, length_be, Nat.add_le_add_iff_right] using hLe
      obtain ⟨middle', hMiddle', hLength⟩ := encodeTunnels_sublist hKept hCounted hMiddle
      obtain ⟨bytes', hBytes'⟩ := ih hLength hRest
      refine ⟨bytes', ensureEncodedSize_bind.mpr ⟨hLe.trans hSize, ?_⟩⟩
      rw [if_neg (Nat.not_lt.mpr (hKept.length_le.trans (Nat.not_lt.mp hCount))), hMiddle']
      exact hBytes'

/-- A snapshot with a tunnel less can be encoded if it could be before. -/
theorem snapshotDigest_withoutTunnel {bytes : List UInt8}
    (h : encodeSnapshot snapshot = .ok bytes) :
    ∃ digest, snapshotDigest sha256 (snapshotWithoutTunnel snapshot agentId tunnelId) =
      .ok digest := by
  have hEdit : (snapshotWithoutTunnel snapshot agentId tunnelId).grants =
      snapshot.grants.filterMap (dropTunnel agentId tunnelId) := by
    rw [← removeAgentTunnel_grants, removeAgentTunnel_eq]
  unfold encodeSnapshot at h
  dsimp only at h
  split_ifs at h with hAgents
  have hLength : (snapshot.grants.filterMap (dropTunnel agentId tunnelId)).length ≤
      maxAgentsPerSnapshot := (length_filterMap_le _ _).trans (Nat.not_lt.mp hAgents)
  have hOutput : (be 4 (snapshot.grants.filterMap (dropTunnel agentId tunnelId)).length).length ≤
      (be 4 snapshot.grants.length).length := by
    rw [length_be, length_be]
  obtain ⟨bytes', hBytes'⟩ := encodeGrants_dropTunnel hOutput h
  refine ⟨sha256 bytes', ?_⟩
  rw [snapshotDigest, encodeSnapshot, hEdit, if_neg (Nat.not_lt.mpr hLength), hBytes']
  rfl

/-! ## The call -/

/-- Nothing is left to mark. -/
structure Marked (db : Db) (agentId : AgentId) (tunnelId : TunnelId) : Prop where
  tokens : ∀ token ∈ db.tokens.rows, token.agentId = agentId → token.tunnelId = tunnelId →
    token.consumed = true ∧ token.revoked = true
  credentials : ∀ row ∈ db.credentials.rows, row.isLiveOf agentId tunnelId = false

theorem marked_marked (db : Db) (terminalAt : Int) :
    Marked (marked db agentId tunnelId terminalAt) agentId tunnelId := by
  constructor
  · intro _ hToken hAgent hTunnel
    obtain ⟨_, -, rfl⟩ := mem_map.mp hToken
    split_ifs at hAgent hTunnel ⊢ with hOf
    · exact ⟨rfl, rfl⟩
    · exact absurd (decide_eq_true ⟨hAgent, hTunnel⟩) hOf
  · intro _ hRow
    obtain ⟨_, -, rfl⟩ := mem_map.mp hRow
    split_ifs with hLive
    · simp [Credential.isLiveOf]
    · exact Bool.eq_false_iff.mpr hLive

theorem Marked.marked_eq (h : Marked db agentId tunnelId) (terminalAt : Int) :
    marked db agentId tunnelId terminalAt = db := by
  have hTokens : (marked db agentId tunnelId terminalAt).tokens = db.tokens := by
    refine Table.updateWhere_eq_self (by exact fun _ _ => id) fun token hToken hOf => ?_
    obtain ⟨hAgent, hTunnel⟩ := of_decide_eq_true hOf
    obtain ⟨_, _⟩ := h.tokens token hToken hAgent hTunnel
    cases token
    simp_all
  have hCredentials : (marked db agentId tunnelId terminalAt).credentials = db.credentials := by
    refine Table.updateWhere_eq_self (by exact fun _ _ => id) fun row hRow hLive => ?_
    rw [h.credentials row hRow] at hLive
    cases hLive
  calc marked db agentId tunnelId terminalAt
      = ⟨db.snapshot, (marked db agentId tunnelId terminalAt).tokens,
          (marked db agentId tunnelId terminalAt).credentials⟩ := rfl
    _ = db := by rw [hTokens, hCredentials]

theorem Marked.countP_eq (h : Marked db agentId tunnelId) :
    db.credentials.rows.countP (·.isLiveOf agentId tunnelId) = 0 :=
  countP_eq_zero.mpr fun row hRow => by simp [h.credentials row hRow]

/-- The call at a time that fits: rows are marked and the snapshot is edited. -/
theorem revokeAgent_eq (hTime : nowUnix < 2 ^ 63) (hLoad : loadSnapshot sha256 db = .ok current) :
    revokeAgent sha256 db agentId tunnelId nowUnix =
      transact db ((updateGrants sha256 (marked db agentId tunnelId nowUnix) current
        (removeAgentTunnel current.snapshot.grants agentId tunnelId)).map fun result =>
          (.ok ⟨result.1, db.credentials.rows.countP (·.isLiveOf agentId tunnelId), result.2.1⟩,
            result.2.2)) := by
  have hMarked : loadSnapshot sha256 (marked db agentId tunnelId nowUnix) = .ok current := hLoad
  unfold marked at hMarked ⊢
  unfold revokeAgent toI64
  rw [if_pos hTime, ok_bind]
  simp only [hMarked, ok_bind]
  rfl

/-- A call at a time that does not fit fails. -/
theorem revokeAgent_late (hTime : 2 ^ 63 ≤ nowUnix) :
    revokeAgent sha256 db agentId tunnelId nowUnix = (.error .invalidTime, db) := by
  unfold revokeAgent toI64
  rw [if_neg (Nat.not_lt.mpr hTime)]
  rfl

/-- Where nothing is left to mark and the edit is none, nothing changes. -/
theorem revokeAgent_again (hLoad : loadSnapshot sha256 db = .ok current)
    (hMarked : Marked db agentId tunnelId)
    (hSame : removeAgentTunnel current.snapshot.grants agentId tunnelId = current.snapshot.grants)
    (hTime : nowUnix < 2 ^ 63) :
    revokeAgent sha256 db agentId tunnelId nowUnix = (.ok ⟨current.version, 0, false⟩, db) := by
  rw [revokeAgent_eq hTime hLoad, hMarked.marked_eq, hMarked.countP_eq, hSame, updateGrants,
    if_neg (not_not.mpr rfl)]
  rfl

/-- What a successful edit of the snapshot makes of the call. -/
theorem revokeAgent_of_update {version : SnapshotVersion} {changed : Bool}
    (hTime : nowUnix < 2 ^ 63) (hLoad : loadSnapshot sha256 db = .ok current)
    (hUpdate : updateGrants sha256 (marked db agentId tunnelId nowUnix) current
      (removeAgentTunnel current.snapshot.grants agentId tunnelId) = .ok (version, changed, db')) :
    revokeAgent sha256 db agentId tunnelId nowUnix = (.ok ⟨version,
        db.credentials.rows.countP (·.isLiveOf agentId tunnelId), changed⟩, db') ∧
      loadSnapshot sha256 db' =
        .ok ⟨version, snapshotWithoutTunnel current.snapshot agentId tunnelId⟩ ∧
      Marked db' agentId tunnelId := by
  have hMarked : loadSnapshot sha256 (marked db agentId tunnelId nowUnix) = .ok current := hLoad
  obtain ⟨_, hNew, hLoad', ⟨hTokens, hCredentials⟩, -⟩ := updateGrants_eq_ok hMarked hUpdate
  rw [removeAgentTunnel_grants, new_grants] at hNew
  cases hNew
  have hRows := @marked_marked agentId tunnelId db nowUnix
  refine ⟨?_, hLoad', hTokens ▸ hRows.tokens, hCredentials ▸ hRows.credentials⟩
  rw [revokeAgent_eq hTime hLoad, hUpdate]
  rfl

/-- The call edits the snapshot and reports whether the edit changed it, unless the time does
not fit, or the edit changes it and it has the last version. -/
theorem revokeAgent_edits (hLoad : loadSnapshot sha256 db = .ok current) :
    let edited := removeAgentTunnel current.snapshot.grants agentId tunnelId ≠
      current.snapshot.grants
    (∃ error, revokeAgent sha256 db agentId tunnelId nowUnix = (.error error, db) ∧
      (2 ^ 63 ≤ nowUnix ∨ edited ∧ current.version.value + 1 = 2 ^ 64)) ∨
    ∃ outcome db' current', revokeAgent sha256 db agentId tunnelId nowUnix = (.ok outcome, db') ∧
      loadSnapshot sha256 db' = .ok current' ∧ outcome.snapshotVersion = current'.version ∧
      current'.snapshot = snapshotWithoutTunnel current.snapshot agentId tunnelId ∧
      Marked db' agentId tunnelId ∧ (outcome.snapshotChanged = true ↔ edited) ∧
      (current'.version.value = current.version.value + 1 ↔ edited) ∧
      (¬edited → current' = current) := by
  intro edited
  by_cases hTime : nowUnix < 2 ^ 63
  swap
  · exact .inl ⟨_, revokeAgent_late (Nat.not_lt.mp hTime), .inl (Nat.not_lt.mp hTime)⟩
  by_cases hEdited : edited
  · cases hVersion : nextVersion current.version with
    | error error =>
      refine .inl ⟨error, ?_, .inr ⟨hEdited, nextVersion_eq_error hVersion⟩⟩
      rw [revokeAgent_eq hTime hLoad, updateGrants, if_pos hEdited, hVersion]
      rfl
    | ok version =>
      obtain ⟨_, hBytes⟩ := encodes_of_loadSnapshot hLoad
      obtain ⟨_, hDigest⟩ := @snapshotDigest_withoutTunnel sha256 _ agentId tunnelId _ hBytes
      obtain ⟨db', hWrite⟩ : ∃ db', writeGrants sha256 (marked db agentId tunnelId nowUnix) version
          (removeAgentTunnel current.snapshot.grants agentId tunnelId) = .ok db' := by
        simp only [writeGrants, removeAgentTunnel_grants, new_grants,
          replaceSnapshot, hDigest]
        exact ⟨_, rfl⟩
      have hUpdate : updateGrants sha256 (marked db agentId tunnelId nowUnix) current
          (removeAgentTunnel current.snapshot.grants agentId tunnelId) =
            .ok (version, true, db') := by
        rw [updateGrants, if_pos hEdited, hVersion, ok_bind, hWrite, ok_bind]
        rfl
      obtain ⟨hRevoke, hLoad', hMarked⟩ := revokeAgent_of_update hTime hLoad hUpdate
      exact .inr ⟨_, db', _, hRevoke, hLoad', rfl, rfl, hMarked, iff_of_true rfl hEdited,
        iff_of_true (nextVersion_eq_ok hVersion) hEdited, fun h => absurd hEdited h⟩
  · have hUpdate : updateGrants sha256 (marked db agentId tunnelId nowUnix) current
        (removeAgentTunnel current.snapshot.grants agentId tunnelId) =
          .ok (current.version, false, marked db agentId tunnelId nowUnix) := by
      rw [updateGrants, if_neg hEdited]
      rfl
    obtain ⟨hRevoke, hLoad', hMarked⟩ := revokeAgent_of_update hTime hLoad hUpdate
    have hCurrent := Except.ok.inj (hLoad'.symm.trans hLoad)
    exact .inr ⟨_, _, _, hRevoke, hLoad', rfl, rfl, hMarked, iff_of_false (by simp) hEdited,
      iff_of_false (by simp) hEdited, fun _ => hCurrent⟩

/-- **What a revocation changes.** In a database whose snapshot loads, `revoke_agent` fails,
and then changes nothing, only for a time that does not fit or when the snapshot has to change
and has the last version. Otherwise no certificate is authorized for the Agent's tunnel
afterwards, the other tunnels of the Agent are the same, and a repeated call changes nothing.
The grants of other Agents are the same, and the snapshot is reported as changed, goes up by
one version and is another one exactly when some grant of the Agent contained the tunnel, if
and only if no other Agent has a grant without a tunnel, and neither has the Agent unless it
has the tunnel to lose. -/
theorem revocation_exact (hLoad : loadSnapshot sha256 db = .ok current) :
    (∃ error, revokeAgent sha256 db agentId tunnelId nowUnix = (.error error, db) ∧
      (2 ^ 63 ≤ nowUnix ∨ removeAgentTunnel current.snapshot.grants agentId tunnelId ≠
        current.snapshot.grants ∧ current.version.value + 1 = 2 ^ 64)) ∨
    ∃ outcome db' current', revokeAgent sha256 db agentId tunnelId nowUnix = (.ok outcome, db') ∧
      loadSnapshot sha256 db' = .ok current' ∧ outcome.snapshotVersion = current'.version ∧
      (∀ certificate, current'.snapshot.authorize certificate agentId tunnelId ≠ .ok ()) ∧
      (∀ certificate tunnel, tunnel.tunnelId ≠ tunnelId →
        (HasTunnel current'.snapshot certificate agentId tunnel ↔
          HasTunnel current.snapshot certificate agentId tunnel)) ∧
      (∀ later, (revokeAgent sha256 db' agentId tunnelId later).2 = db' ∧
        (later < 2 ^ 63 → revokeAgent sha256 db' agentId tunnelId later =
          (.ok ⟨current'.version, 0, false⟩, db'))) ∧
      (current'.snapshot.grants.filter (·.agentId ≠ agentId) =
            current.snapshot.grants.filter (·.agentId ≠ agentId) ∧
          (outcome.snapshotChanged = true ↔ GrantsTunnel current.snapshot agentId tunnelId) ∧
          (current'.version.value = current.version.value + 1 ↔
            GrantsTunnel current.snapshot agentId tunnelId) ∧
          (¬GrantsTunnel current.snapshot agentId tunnelId → current' = current) ↔
        NoneIdle current.snapshot agentId tunnelId) := by
  rcases revokeAgent_edits hLoad with hError | ⟨outcome, db', current', hRevoke, hLoad', hVersion,
    hSnapshot, hMarked, hChanged, hBumped, hSame⟩
  · exact .inl hError
  refine .inr ⟨outcome, db', current', hRevoke, hLoad', hVersion, ?_, ?_, fun later => ?_, ?_⟩
  · exact hSnapshot ▸ not_authorized_withoutTunnel
  · exact fun _ _ hOther => hSnapshot ▸ hasTunnel_withoutTunnel hOther
  · have hNone : removeAgentTunnel current'.snapshot.grants agentId tunnelId =
        current'.snapshot.grants := hSnapshot ▸ removeAgentTunnel_again
    by_cases hLater : later < 2 ^ 63
    · have hRepeat := revokeAgent_again hLoad' hMarked hNone hLater
      exact ⟨by rw [hRepeat], fun _ => hRepeat⟩
    · exact ⟨by rw [revokeAgent_late (Nat.not_lt.mp hLater)], fun h => absurd h hLater⟩
  · rw [noneIdle_iff, hSnapshot, ← removeAgentTunnel_grants, hChanged, hBumped]
    constructor
    · exact fun h => ⟨h.1, h.2.1⟩
    · exact fun h => ⟨h.1, h.2, h.2, fun hNone => hSame fun hEdited => hNone (h.2.mp hEdited)⟩

open EnrollmentExample in
/-- The Agent's tunnel is enabled for one certificate; after the revocation it is not. -/
theorem revocation_exact_enrolled :
    ∃ db outcome db' current', exec (step digest) initial enrolled = some db ∧
      revokeAgent digest db EnrollmentExample.agentId web 15 = (.ok outcome, db') ∧
      loadSnapshot digest db' = .ok current' ∧ outcome.snapshotChanged = true ∧
      ∀ certificate, current'.snapshot.authorize certificate EnrollmentExample.agentId web ≠
        .ok () := by
  obtain ⟨db, hdb, current, hLoad, hOccupied, hGrants, hVersion⟩ : ∃ db,
      exec (step digest) initial enrolled = some db ∧
        ∃ current, loadSnapshot digest db = .ok current ∧
        (∀ grant ∈ current.snapshot.grants, grant.tunnels ≠ []) ∧
        (∃ grant ∈ current.snapshot.grants, grant.agentId = agentId ∧
          ∃ tunnel ∈ grant.tunnels, tunnel.tunnelId = web) ∧
        current.version.value + 1 ≠ 2 ^ 64 := by decide +kernel
  rcases @revocation_exact digest db current agentId web 15 hLoad with ⟨_, -, hLate | ⟨-, hLast⟩⟩ |
    ⟨outcome, db', current', hRevoke, hLoad', -, hUnauthorized, -, -, hIff⟩
  · exact absurd hLate (by decide)
  · exact absurd hLast hVersion
  · obtain ⟨-, hChanged, -⟩ := hIff.mpr ⟨fun grant hGrant _ => hOccupied grant hGrant, .inl hGrants⟩
    exact ⟨db, outcome, db', current', hdb, hRevoke, hLoad', hChanged.mpr hGrants, hUnauthorized⟩

namespace EnrollmentExample

/-- Another Agent has a certificate and no tunnel. -/
def idle : VersionedAuthorizationSnapshot :=
  ⟨.first, ⟨ExtTreeMap.ofList [(filled 9, AuthorizedAgent.mk ⟨[98], DurableId.valid_b⟩ ∅)]⟩⟩

/-- It has been imported into a new database. -/
def imported : Db :=
  { initial with snapshot := (SnapshotTables.commit digest ⟨none, [], []⟩ idle).2 }

end EnrollmentExample

open EnrollmentExample in
/-- A snapshot with the grant of one Agent that has no tunnel is imported. The revocation of
a tunnel of another Agent, which has no grant at all, drops that grant and reports a changed
snapshot with a new version. -/
theorem revocation_drops_idle_grant :
    (SnapshotTables.commit digest ⟨none, [], []⟩ idle).1 = .ok (.applied none idle.version) ∧
    loadSnapshot digest imported = .ok idle ∧
    ¬GrantsTunnel idle.snapshot EnrollmentExample.agentId web ∧
    ∃ outcome db' current',
      revokeAgent digest imported EnrollmentExample.agentId web 15 = (.ok outcome, db') ∧
      loadSnapshot digest db' = .ok current' ∧ outcome.snapshotChanged = true ∧
      current'.version.value = idle.version.value + 1 ∧
      current'.snapshot.grants.filter (·.agentId ≠ EnrollmentExample.agentId) ≠
        idle.snapshot.grants.filter (·.agentId ≠ EnrollmentExample.agentId) := by
  obtain ⟨current', hLoad', hVersion, hLost⟩ : ∃ current',
      loadSnapshot digest (revokeAgent digest imported agentId web 15).2 = .ok current' ∧
        current'.version.value = idle.version.value + 1 ∧
        current'.snapshot.grants.filter (·.agentId ≠ agentId) ≠
          idle.snapshot.grants.filter (·.agentId ≠ agentId) := by decide +kernel
  have hOutcome : (revokeAgent digest imported agentId web 15).1 =
      .ok ⟨⟨2, by decide, by decide⟩, 0, true⟩ := by decide +kernel
  refine ⟨by decide +kernel, by decide +kernel, ?_, _, _, current', Prod.ext hOutcome rfl,
    hLoad', rfl, hVersion, hLost⟩
  unfold GrantsTunnel
  decide +kernel

end TunnelProxy.Control.Enrollment
