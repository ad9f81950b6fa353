import Mathlib.Order.Lattice
import Mathlib.Order.Nat
import TunnelProxy.Lib.TreeMap
import TunnelProxy.Common.Identity

/-!
# Authorization snapshots

The certificate-to-Agent-to-tunnel snapshot, its canonical grant list, and the
publisher that replaces the current versioned snapshot. The hash maps of the source are
ordered maps here: no function of the source lets their iteration order be seen, since
`grants` sorts what it lists.

* `authorize_eq_ok` — what an authorized principal is, as a lookup
* `new_grants` — building a snapshot from its own grants gives it back
* `new_filter`, `new_concat` — the snapshot after the edits of the grant list that the
  repository makes, as edits of the map
* `publish_applied` — an applied publication raises the version
-/

namespace TunnelProxy.Control

open Std Common

/-! ## The snapshot -/

/-- SHA-256 digest of one leaf client certificate in DER form. -/
abbrev CertificateFingerprint := FixedBytes 32

inductive TunnelStatus where
  | enabled
  | disabled
deriving DecidableEq, Repr

structure TunnelGrant where
  tunnelId : TunnelId
  status : TunnelStatus
deriving DecidableEq

/-- Exact durable identity authorized for one client leaf certificate. -/
structure AgentGrant where
  certificate : CertificateFingerprint
  agentId : AgentId
  tunnels : List TunnelGrant
deriving DecidableEq

structure AuthorizedAgent where
  agentId : AgentId
  tunnels : ExtTreeMap TunnelId TunnelStatus
deriving DecidableEq

/-- Immutable certificate-to-Agent-to-Tunnel authorization snapshot. -/
@[ext]
structure AuthorizationSnapshot where
  agents : ExtTreeMap CertificateFingerprint AuthorizedAgent
deriving DecidableEq

inductive SnapshotError where
  | duplicateCertificate (certificate : CertificateFingerprint)
  | duplicateTunnel (agentId : AgentId) (tunnelId : TunnelId)
deriving DecidableEq

inductive AuthorizationError where
  | unknownCertificate
  | agentMismatch
  | tunnelNotAuthorized
  | tunnelDisabled
deriving DecidableEq, Repr

namespace AuthorizationSnapshot

/-- The inner loop of `new`: the tunnels of one grant. -/
def addTunnels (agentId : AgentId) (tunnels : List TunnelGrant) :
    Except SnapshotError (ExtTreeMap TunnelId TunnelStatus) :=
  TreeMap.insertAll TunnelGrant.tunnelId (fun tunnel => .ok tunnel.status)
    (fun tunnel => .duplicateTunnel agentId tunnel.tunnelId) ∅ tunnels

def authorizedAgent (grant : AgentGrant) : Except SnapshotError AuthorizedAgent :=
  (addTunnels grant.agentId grant.tunnels).map fun tunnels => ⟨grant.agentId, tunnels⟩

/-- The tunnels of a grant are checked before its certificate. -/
def new (grants : List AgentGrant) : Except SnapshotError AuthorizationSnapshot :=
  (TreeMap.insertAll AgentGrant.certificate authorizedAgent
    (fun grant => .duplicateCertificate grant.certificate) ∅ grants).map fun agents => ⟨agents⟩

def authorize (snapshot : AuthorizationSnapshot) (certificate : CertificateFingerprint)
    (agentId : AgentId) (tunnelId : TunnelId) : Except AuthorizationError Unit :=
  match snapshot.agents[certificate]? with
  | none => .error .unknownCertificate
  | some agent =>
    if agent.agentId ≠ agentId then .error .agentMismatch
    else match agent.tunnels[tunnelId]? with
      | some .disabled => .error .tunnelDisabled
      | some .enabled => .ok ()
      | none => .error .tunnelNotAuthorized

/-- The grant of one entry of the map, its tunnels sorted by id. -/
def grantOf (entry : CertificateFingerprint × AuthorizedAgent) : AgentGrant where
  certificate := entry.1
  agentId := entry.2.agentId
  tunnels := entry.2.tunnels.toList.map fun tunnel => ⟨tunnel.1, tunnel.2⟩

/-- The canonical grant view, sorted by fingerprint and tunnel id. -/
def grants (snapshot : AuthorizationSnapshot) : List AgentGrant :=
  snapshot.agents.toList.map grantOf

variable {snapshot : AuthorizationSnapshot} {certificate : CertificateFingerprint}
  {agentId : AgentId} {tunnelId : TunnelId} {grant : AgentGrant}

/-- An authorized principal is an entry of the maps that is enabled. -/
theorem authorize_eq_ok : snapshot.authorize certificate agentId tunnelId = .ok () ↔
      ∃ agent, snapshot.agents[certificate]? = some agent ∧ agent.agentId = agentId ∧
        agent.tunnels[tunnelId]? = some .enabled := by
  unfold authorize
  cases hAgent : snapshot.agents[certificate]? with
  | none => simp
  | some agent =>
    by_cases hId : agent.agentId = agentId
    · cases hTunnel : agent.tunnels[tunnelId]? with
      | none => simp [hId, hTunnel]
      | some status => cases status <;> simp [hId, hTunnel]
    · simp [hId]

theorem mem_grants : grant ∈ snapshot.grants ↔
      ∃ agent, snapshot.agents[grant.certificate]? = some agent ∧
        grantOf (grant.certificate, agent) = grant := by
  constructor
  · intro hMem
    obtain ⟨⟨_, agent⟩, hEntry, rfl⟩ := List.mem_map.mp hMem
    exact ⟨agent, ExtTreeMap.mem_toList_iff_getElem?_eq_some.mp hEntry, rfl⟩
  · rintro ⟨agent, hAgent, hGrant⟩
    exact List.mem_map.mpr ⟨(grant.certificate, agent),
      ExtTreeMap.mem_toList_iff_getElem?_eq_some.mpr hAgent, hGrant⟩

@[simp]
theorem authorizedAgent_grantOf (entry : CertificateFingerprint × AuthorizedAgent) :
    authorizedAgent (grantOf entry) = .ok entry.2 := by
  have hTunnels : addTunnels entry.2.agentId (grantOf entry).tunnels = .ok entry.2.tunnels :=
    TreeMap.insertAll_toList (fun _ => rfl) (fun _ => rfl)
  show (addTunnels entry.2.agentId (grantOf entry).tunnels).map _ = _
  rw [hTunnels]
  rfl

/-- A snapshot is what its own grants build. -/
theorem new_grants (snapshot : AuthorizationSnapshot) : new snapshot.grants = .ok snapshot := by
  have hAgents : TreeMap.insertAll AgentGrant.certificate authorizedAgent
      (fun grant => .duplicateCertificate grant.certificate) ∅ snapshot.grants =
        .ok snapshot.agents :=
    TreeMap.insertAll_toList (fun _ => rfl) authorizedAgent_grantOf
  rw [new, hAgents]
  rfl

/-- Dropping grants from the list drops them from the map. -/
theorem new_filter (snapshot : AuthorizationSnapshot) (keep : AgentGrant → Bool) :
    ∃ snapshot', new (snapshot.grants.filter keep) = .ok snapshot' ∧
      ∀ certificate agent, snapshot'.agents[certificate]? = some agent ↔
        snapshot.agents[certificate]? = some agent ∧ keep (grantOf (certificate, agent)) := by
  let kept : AuthorizationSnapshot :=
    ⟨snapshot.agents.filter fun certificate agent => keep (grantOf (certificate, agent))⟩
  have hGrants : snapshot.grants.filter keep = kept.grants := by
    rw [grants, grants, ExtTreeMap.toList_filter, List.filter_map]
    rfl
  refine ⟨kept, hGrants ▸ new_grants kept, fun certificate agent => ?_⟩
  rw [ExtTreeMap.getElem?_filter', Option.filter_eq_some_iff]

/-- A grant for a new certificate, pushed to the list. -/
theorem new_concat {agent : AuthorizedAgent} (hNew : grant.certificate ∉ snapshot.agents)
    (hAgent : authorizedAgent grant = .ok agent) :
    new (snapshot.grants ++ [grant]) = .ok ⟨snapshot.agents.insert grant.certificate agent⟩ := by
  have hGrants := new_grants snapshot
  unfold new at hGrants ⊢
  cases hAll : TreeMap.insertAll AgentGrant.certificate authorizedAgent
      (fun grant => .duplicateCertificate grant.certificate) ∅ snapshot.grants with
  | error error => simp [hAll, Except.map] at hGrants
  | ok agents =>
    obtain rfl : (⟨agents⟩ : AuthorizationSnapshot) = snapshot := by
      simpa [hAll, Except.map] using hGrants
    rw [TreeMap.insertAll_append hAll]
    simp only [TreeMap.insertAll, hAgent, hNew, if_false, Except.map]

end AuthorizationSnapshot

/-! ## Versions and publication -/

/-- Monotonic version assigned by the authoritative snapshot producer: a nonzero 64-bit
number. -/
@[ext]
structure SnapshotVersion where
  value : Nat
  pos : 0 < value
  lt : value < 2 ^ 64
deriving DecidableEq

namespace SnapshotVersion

def new (value : Nat) : Option SnapshotVersion :=
  if h : 0 < value ∧ value < 2 ^ 64 then some ⟨value, h.1, h.2⟩ else none

def first : SnapshotVersion := ⟨1, Nat.one_pos, by decide⟩

instance : LinearOrder SnapshotVersion :=
  LinearOrder.lift' value fun _ _ h => SnapshotVersion.ext h

end SnapshotVersion

/-- One complete, authoritative authorization snapshot. -/
@[ext]
structure VersionedAuthorizationSnapshot where
  version : SnapshotVersion
  snapshot : AuthorizationSnapshot
deriving DecidableEq

inductive SnapshotPublishOutcome where
  | applied (previous current : SnapshotVersion)
  | unchanged (version : SnapshotVersion)
deriving DecidableEq

inductive SnapshotUpdateError where
  | staleVersion (current received : SnapshotVersion)
  | conflictingVersion (version : SnapshotVersion)
deriving DecidableEq

/-- `AuthorizationSnapshotPublisher::publish` under its mutex: the outcome and the
snapshot that is current afterwards. -/
def publish (current candidate : VersionedAuthorizationSnapshot) :
    Except SnapshotUpdateError (SnapshotPublishOutcome × VersionedAuthorizationSnapshot) :=
  if candidate.version < current.version then
    .error (.staleVersion current.version candidate.version)
  else if candidate.version = current.version then
    if candidate.snapshot = current.snapshot then .ok (.unchanged current.version, current)
    else .error (.conflictingVersion current.version)
  else .ok (.applied current.version candidate.version, candidate)

variable {candidate current next : VersionedAuthorizationSnapshot}

/-- What is the current snapshot or newer is accepted, and is current afterwards. -/
theorem publish_ok (h : current = candidate ∨ current.version < candidate.version) :
    ∃ outcome, publish current candidate = .ok (outcome, candidate) := by
  rcases h with rfl | hNewer
  · exact ⟨.unchanged current.version, by simp [publish]⟩
  · exact ⟨.applied current.version candidate.version,
      by rw [publish, if_neg hNewer.asymm, if_neg hNewer.ne']⟩

theorem publish_next {outcome : SnapshotPublishOutcome}
    (h : publish current candidate = .ok (outcome, next)) : next = candidate := by
  unfold publish at h
  split at h
  · cases h
  · split at h
    · rename_i hVersion
      split at h
      · rename_i hSnapshot
        cases h
        cases current
        cases candidate
        cases hVersion
        cases hSnapshot
        rfl
      · cases h
    · cases h
      rfl

/-- An applied candidate is newer than what it replaces. -/
theorem publish_applied {previous version : SnapshotVersion}
    (h : publish current candidate = .ok (.applied previous version, next)) :
    next = candidate ∧ current.version < next.version := by
  unfold publish at h
  split at h
  · cases h
  · rename_i hNotStale
    split at h
    · split at h <;> cases h
    · rename_i hNe
      cases h
      exact ⟨rfl, (le_of_not_gt hNotStale).lt_of_ne (Ne.symm hNe)⟩

end TunnelProxy.Control
