import Mathlib.Data.List.Sort
import TunnelProxy.Lib.BigEndian
import TunnelProxy.Lib.Table
import TunnelProxy.Control.Snapshot

/-!
# The durable snapshot

The canonical encoding of a snapshot, its digest, and the tables the snapshot is stored
in: a head row with version and digest, and the rows of the certificates and of their
tunnels. Blobs and texts of the tables are modelled decoded. The hash function is a
parameter.

* `loadLatest_write` — what was written as a snapshot is loaded as that snapshot
-/

namespace TunnelProxy.Control

open Std Common BigEndian AuthorizationSnapshot List

/-! ## Encoding -/

def maxSnapshotBytes : Nat := 1024 * 1024

def maxAgentsPerSnapshot : Nat := 4096

def maxTunnelsPerAgent : Nat := 4096

inductive SnapshotCodecError where
  | tooLarge (size : Nat)
  | tooManyAgents (count : Nat)
  | tooManyTunnels (count : Nat)
  | truncated
  | trailingBytes
  | invalidVersion
  | invalidUtf8
  | invalidId
  | invalidStatus
  | invalidSnapshot (error : SnapshotError)
deriving DecidableEq

def pushId (output : List UInt8) (value : Text) : List UInt8 :=
  output ++ be 2 value.length ++ value

def ensureEncodedSize (output : List UInt8) : Except SnapshotCodecError Unit :=
  if maxSnapshotBytes < output.length then .error (.tooLarge output.length) else .ok ()

def statusByte : TunnelStatus → UInt8
  | .enabled => 1
  | .disabled => 2

def encodeTunnels (output : List UInt8) : List TunnelGrant → Except SnapshotCodecError (List UInt8)
  | [] => .ok output
  | tunnel :: rest => do
    let output := pushId output tunnel.tunnelId.text ++ [statusByte tunnel.status]
    ensureEncodedSize output
    encodeTunnels output rest

def encodeGrants (output : List UInt8) : List AgentGrant → Except SnapshotCodecError (List UInt8)
  | [] => .ok output
  | grant :: rest => do
    let output := pushId (output ++ grant.certificate.bytes) grant.agentId.text
    ensureEncodedSize output
    if maxTunnelsPerAgent < grant.tunnels.length then
      throw (.tooManyTunnels grant.tunnels.length)
    let output ← encodeTunnels (output ++ be 2 grant.tunnels.length) grant.tunnels
    encodeGrants output rest

def encodeSnapshot (snapshot : AuthorizationSnapshot) : Except SnapshotCodecError (List UInt8) :=
  let grants := snapshot.grants
  if maxAgentsPerSnapshot < grants.length then .error (.tooManyAgents grants.length)
  else encodeGrants (be 4 grants.length) grants

abbrev Digest := FixedBytes 32

/-- SHA-256. -/
abbrev Hash := List UInt8 → Digest

def snapshotDigest (sha256 : Hash) (snapshot : AuthorizationSnapshot) :
    Except SnapshotCodecError Digest :=
  (encodeSnapshot snapshot).map sha256

/-- What has a digest can be encoded. -/
theorem snapshotDigest_eq_ok {sha256 : Hash} {snapshot : AuthorizationSnapshot} {digest : Digest}
    (h : snapshotDigest sha256 snapshot = .ok digest) :
    ∃ bytes, encodeSnapshot snapshot = .ok bytes ∧ sha256 bytes = digest := by
  cases hBytes : encodeSnapshot snapshot with
  | error => simp [snapshotDigest, hBytes, Except.map] at h
  | ok bytes =>
    rw [snapshotDigest, hBytes] at h
    exact ⟨bytes, rfl, Except.ok.inj h⟩

/-! ## Tables -/

structure SnapshotHead where
  version : SnapshotVersion
  digest : Digest
deriving DecidableEq

/-- `snapshot_head`, `snapshot_agents` and `snapshot_tunnels`. -/
structure SnapshotTables where
  head : Option SnapshotHead
  agents : List (CertificateFingerprint × AgentId)
  tunnels : List (CertificateFingerprint × TunnelGrant)
deriving DecidableEq

inductive SnapshotRepositoryError where
  | corrupt
  | codec (error : SnapshotCodecError)
  | staleVersion (current received : SnapshotVersion)
  | conflictingVersion (version : SnapshotVersion)
deriving DecidableEq

inductive SnapshotCommitOutcome where
  | applied (previous : Option SnapshotVersion) (current : SnapshotVersion)
  | unchanged (version : SnapshotVersion)
deriving DecidableEq

/-- The end of `load_latest_from_connection`: the rows that were read against the head. -/
def checkLoaded (sha256 : Hash) (head : SnapshotHead) (grants : List AgentGrant) :
    Except SnapshotRepositoryError VersionedAuthorizationSnapshot :=
  match AuthorizationSnapshot.new grants with
  | .error _ => .error .corrupt
  | .ok snapshot =>
    match snapshotDigest sha256 snapshot with
    | .error error => .error (.codec error)
    | .ok digest => if head.digest ≠ digest then .error .corrupt else .ok ⟨head.version, snapshot⟩

namespace SnapshotTables

/-- The tunnel rows of one certificate, `ORDER BY tunnel_id`. -/
def tunnelsOf (tables : SnapshotTables) (certificate : CertificateFingerprint) : List TunnelGrant :=
  ((tables.tunnels.filter (·.1 = certificate)).map (·.2)).insertionSort
    fun a b => (compare a.tunnelId b.tunnelId).isLE

/-- The rows of all certificates, `ORDER BY certificate`, each with its tunnels. -/
def grants (tables : SnapshotTables) : List AgentGrant :=
  (tables.agents.insertionSort fun a b => (compare a.1 b.1).isLE).map fun row =>
    ⟨row.1, row.2, tables.tunnelsOf row.1⟩

/-- `load_latest_from_connection` -/
def loadLatest (sha256 : Hash) (tables : SnapshotTables) :
    Except SnapshotRepositoryError (Option VersionedAuthorizationSnapshot) :=
  match tables.head with
  | none => .ok none
  | some head => (checkLoaded sha256 head tables.grants).map some

/-- The writes of `replace_snapshot`, after its digest: all rows are deleted and those of
the grants inserted, and the head row, if there is one, is updated. -/
def write (tables : SnapshotTables) (version : SnapshotVersion) (digest : Digest)
    (grants : List AgentGrant) : SnapshotTables where
  head := tables.head.map fun _ => ⟨version, digest⟩
  agents := grants.map fun grant => (grant.certificate, grant.agentId)
  tunnels := grants.flatMap fun grant => grant.tunnels.map fun tunnel => (grant.certificate, tunnel)

/-- The writes of `SqliteSnapshotRepository::commit`: the same, and the head row is there
afterwards. -/
def writeHead (tables : SnapshotTables) (version : SnapshotVersion) (digest : Digest)
    (grants : List AgentGrant) : SnapshotTables :=
  { tables.write version digest grants with head := some ⟨version, digest⟩ }

/-- `SqliteSnapshotRepository::commit` -/
def commit (sha256 : Hash) (tables : SnapshotTables) (snapshot : VersionedAuthorizationSnapshot) :
    Except SnapshotRepositoryError SnapshotCommitOutcome × SnapshotTables :=
  match snapshotDigest sha256 snapshot.snapshot with
  | .error error => (.error (.codec error), tables)
  | .ok digest =>
    let written := tables.writeHead snapshot.version digest snapshot.snapshot.grants
    match tables.head with
    | none => (.ok (.applied none snapshot.version), written)
    | some head =>
      if snapshot.version < head.version then
        (.error (.staleVersion head.version snapshot.version), tables)
      else if snapshot.version = head.version then
        if head.digest = digest then (.ok (.unchanged head.version), tables)
        else (.error (.conflictingVersion head.version), tables)
      else (.ok (.applied (some head.version) snapshot.version), written)

/-- The tunnels of one certificate among the rows of grants of distinct certificates. -/
theorem filter_flatMap_tunnels {grants : List AgentGrant} {grant : AgentGrant}
    (hDistinct : grants.Pairwise (·.certificate ≠ ·.certificate)) (hMem : grant ∈ grants) :
    ((grants.flatMap fun g => g.tunnels.map fun tunnel => (g.certificate, tunnel)).filter
      (·.1 = grant.certificate)).map (·.2) = grant.tunnels := by
  induction grants with
  | nil => cases hMem
  | cons first rest ih =>
    obtain ⟨hFirst, hRest⟩ := pairwise_cons.mp hDistinct
    rw [flatMap_cons, filter_append, map_append]
    rcases mem_cons.mp hMem with rfl | hLater
    · -- no later grant has rows for the certificate of the first
      have hNone :
          ((rest.flatMap fun g => g.tunnels.map fun tunnel => (g.certificate, tunnel)).filter
            (·.1 = grant.certificate)) = [] := by
        simp only [filter_eq_nil_iff, mem_flatMap, mem_map, decide_eq_true_eq]
        rintro _ ⟨g, hg, _, -, rfl⟩
        exact (hFirst g hg).symm
      simp [hNone, filter_map, Function.comp_def]
    · have hNe : first.certificate ≠ grant.certificate := hFirst grant hLater
      simp [filter_map, Function.comp_def, hNe, ih hRest hLater]

variable {sha256 : Hash} {tables : SnapshotTables} {snapshot : AuthorizationSnapshot}
  {version : SnapshotVersion} {digest : Digest} {current : VersionedAuthorizationSnapshot}

/-- The rows written for a snapshot are read back as its grants, in the same order. -/
theorem grants_write : (tables.write version digest snapshot.grants).grants = snapshot.grants := by
  have hKeys := snapshot.agents.ordered_keys_toList
  have hDistinct : snapshot.grants.Pairwise (·.certificate ≠ ·.certificate) := by
    refine pairwise_map.mpr (hKeys.imp fun {a b} hLt hEq => ?_)
    simp only [grantOf] at hEq
    rw [hEq, compare_self] at hLt
    cases hLt
  have hAgents :
      ((snapshot.grants.map fun grant => (grant.certificate, grant.agentId)).insertionSort
        fun a b => (compare a.1 b.1).isLE) =
      snapshot.grants.map fun grant => (grant.certificate, grant.agentId) := by
    refine Pairwise.insertionSort_eq ?_
    simp only [AuthorizationSnapshot.grants, map_map, pairwise_map]
    exact hKeys.imp fun {a b} hLt => by simp [grantOf, hLt]
  have hTunnels : ∀ grant ∈ snapshot.grants,
      (tables.write version digest snapshot.grants).tunnelsOf grant.certificate =
        grant.tunnels := by
    intro grant hGrant
    have hSorted : grant.tunnels.Pairwise
        fun a b => (compare a.tunnelId b.tunnelId).isLE = true := by
      obtain ⟨agent, -, hEq⟩ := mem_grants.mp hGrant
      rw [← hEq, grantOf]
      exact pairwise_map.mpr
        (agent.tunnels.ordered_keys_toList.imp fun {a b} hLt => by simp [hLt])
    simp only [tunnelsOf, write, filter_flatMap_tunnels hDistinct hGrant]
    exact hSorted.insertionSort_eq
  rw [grants, write, hAgents, map_map]
  conv_rhs => rw [← map_id snapshot.grants]
  refine map_congr_left fun grant hGrant => ?_
  have := hTunnels grant hGrant
  simp only [write] at this
  simp [this]

/-- **A replaced snapshot is the one that is loaded.** -/
theorem loadLatest_write {head : SnapshotHead} (hHead : tables.head = some head)
    (hDigest : snapshotDigest sha256 snapshot = .ok digest) :
    (tables.write version digest snapshot.grants).loadLatest sha256 =
      .ok (some ⟨version, snapshot⟩) := by
  have hNew : AuthorizationSnapshot.new
      (tables.write version digest snapshot.grants).grants = .ok snapshot := by
    rw [grants_write, new_grants]
  have hHead' : (tables.write version digest snapshot.grants).head = some ⟨version, digest⟩ := by
    simp [write, hHead]
  simp [loadLatest, checkLoaded, hHead', hNew, hDigest, Except.map]

/-- The first commit to a new database is applied. -/
theorem commit_first (hHead : tables.head = none)
    (hDigest : snapshotDigest sha256 current.snapshot = .ok digest) :
    tables.commit sha256 current = (.ok (.applied none current.version),
      tables.writeHead current.version digest current.snapshot.grants) := by
  simp only [commit, hDigest, hHead]

theorem loadLatest_of_head {head : SnapshotHead} (h : tables.head = some head) :
    tables.loadLatest sha256 = (checkLoaded sha256 head tables.grants).map some := by
  rw [loadLatest, h]

/-- What is loaded has the version and the digest of the head. -/
theorem head_of_loadLatest (h : tables.loadLatest sha256 = .ok (some current)) :
    ∃ head, tables.head = some head ∧ head.version = current.version ∧
      snapshotDigest sha256 current.snapshot = .ok head.digest := by
  cases hHead : tables.head with
  | none =>
    rw [loadLatest, hHead] at h
    cases h
  | some head =>
    refine ⟨head, rfl, ?_⟩
    rw [loadLatest_of_head hHead, checkLoaded] at h
    split at h
    · cases h
    split at h
    · cases h
    rename_i hDigest
    split_ifs at h with hEq
    · cases h
    cases h
    exact ⟨rfl, not_not.mp hEq ▸ hDigest⟩

end SnapshotTables

end TunnelProxy.Control
