import TunnelProxy.Control.SnapshotCodec
import TunnelProxy.Control.Enrollment

/-!
# The two size limits of a snapshot

The repository bounds the encoding of a snapshot by 1 MiB, the distribution bounds it by
1 MiB together with its version. A snapshot of the last eight sizes is durable and can be
neither sent nor cached (`durable_snapshot_stuck`); a durable snapshot travels exactly if it
is smaller (`durable_snapshot_travels`).
-/

namespace TunnelProxy.Control

open Std Common BigEndian List AuthorizationSnapshot ExtTreeMap

/-! ## Messages -/

inductive SnapshotServiceErrorCode where
  | invalidRequest
  | repositoryUninitialized
  | clientAhead
deriving DecidableEq, Repr

def SnapshotServiceErrorCode.toRaw : SnapshotServiceErrorCode → Nat
  | .invalidRequest => 1
  | .repositoryUninitialized => 2
  | .clientAhead => 3

inductive SnapshotMessage where
  /-- Version zero means a fresh Edge with no cached snapshot. -/
  | subscribe (lastAppliedVersion : Nat)
  | snapshot (snapshot : VersionedAuthorizationSnapshot)
  | upToDate (version : SnapshotVersion)
  | error (code : SnapshotServiceErrorCode)
deriving DecidableEq

inductive SnapshotProtocolError where
  | snapshot (error : SnapshotCodecError)
  | payloadTooLarge (size : Nat)
deriving DecidableEq

/-- The type byte and the payload of a message. -/
def SnapshotMessage.payload : SnapshotMessage → Except SnapshotProtocolError (UInt8 × List UInt8)
  | .subscribe lastAppliedVersion => .ok (1, be 8 lastAppliedVersion)
  | .snapshot current =>
    match encodeVersionedSnapshot current with
    | .ok bytes => .ok (2, bytes)
    | .error codecError => .error (.snapshot codecError)
  | .upToDate version => .ok (3, be 8 version.value)
  | .error code => .ok (4, be 2 code.toRaw)

/-- The magic `TPS1`, the protocol version, the type, no flags, and the payload with its
length. -/
def encodeSnapshotMessage (message : SnapshotMessage) :
    Except SnapshotProtocolError (List UInt8) := do
  let (type, payload) ← message.payload
  if maxSnapshotBytes < payload.length then .error (.payloadTooLarge payload.length)
  else return [84, 80, 83, 49] ++ [1, type] ++ be 2 0 ++ be 4 payload.length ++ payload

/-! ## Sizes -/

def tunnelSize (tunnel : TunnelGrant) : Nat := 3 + tunnel.tunnelId.text.length

def grantSize (grant : AgentGrant) : Nat :=
  36 + grant.agentId.text.length + (grant.tunnels.map tunnelSize).sum

/-- The bytes the grants of a snapshot take in its canonical form. -/
def encodedSize (snapshot : AuthorizationSnapshot) : Nat :=
  4 + (snapshot.grants.map grantSize).sum

theorem length_tunnelBytes (tunnel : TunnelGrant) :
    (tunnelBytes tunnel).length = tunnelSize tunnel := by
  simp only [tunnelBytes, pushId, tunnelSize, length_append, length_be, length_nil,
    length_singleton]
  omega

theorem length_grantBytes (grant : AgentGrant) : (grantBytes grant).length = grantSize grant := by
  have hTunnels : (grant.tunnels.flatMap tunnelBytes).length =
      (grant.tunnels.map tunnelSize).sum := by
    simp only [length_flatMap, length_tunnelBytes]
  simp only [grantBytes, pushId, grantSize, length_append, length_be, hTunnels,
    grant.certificate.length_eq]
  omega

theorem length_snapshotBytes (snapshot : AuthorizationSnapshot) :
    (snapshotBytes snapshot).length = encodedSize snapshot := by
  simp only [snapshotBytes, encodedSize, length_append, length_be, length_flatMap,
    length_grantBytes]

/-- A snapshot that `SqliteSnapshotRepository::commit` or the enrollment repository has made
durable. -/
inductive Durable (sha256 : Hash) (snapshot : VersionedAuthorizationSnapshot) : Prop
  | commit (tables outcome tables')
      (h : SnapshotTables.commit sha256 tables snapshot = (.ok outcome, tables'))
  | replace (db db') (h : Enrollment.replaceSnapshot sha256 db snapshot = .ok db')

section

variable {sha256 : Hash} {snapshot : VersionedAuthorizationSnapshot} {payload : List UInt8}

/-- Either way the digest was computed, and so the snapshot encoded. -/
theorem Durable.encodes (h : Durable sha256 snapshot) :
    ∃ bytes, encodeSnapshot snapshot.snapshot = .ok bytes := by
  have hDigest : ∀ {digest}, snapshotDigest sha256 snapshot.snapshot = .ok digest →
      ∃ bytes, encodeSnapshot snapshot.snapshot = .ok bytes := by
    intro _ hDigest
    obtain ⟨bytes, hBytes, -⟩ := snapshotDigest_eq_ok hDigest
    exact ⟨bytes, hBytes⟩
  cases h with
  | commit _ _ _ h =>
    unfold SnapshotTables.commit at h
    split at h
    · cases h
    · exact hDigest ‹_›
  | replace _ _ h =>
    unfold Enrollment.replaceSnapshot at h
    split at h
    · cases h
    · exact hDigest ‹_›

/-- The versioned form of a snapshot that is encoded. -/
theorem encodeVersionedSnapshot_of_encodes
    (h : encodeSnapshot snapshot.snapshot = .ok payload) :
    encodeVersionedSnapshot snapshot =
      if encodedSize snapshot.snapshot + 8 ≤ maxSnapshotBytes
      then .ok (be 8 snapshot.version.value ++ payload)
      else .error (.tooLarge (encodedSize snapshot.snapshot + 8)) := by
  obtain ⟨rfl, -⟩ := encodeSnapshot_eq_ok h
  rw [encodeVersionedSnapshot, h, ok_bind]
  dsimp only
  rw [length_snapshotBytes]
  by_cases hSize : encodedSize snapshot.snapshot + 8 ≤ maxSnapshotBytes
  · rw [if_neg (Nat.not_lt.mpr hSize), if_pos hSize]
    rfl
  · rw [if_pos (Nat.not_le.mp hSize), if_neg hSize]

/-- **Durable snapshots travel**, if and only if their canonical form leaves room for the
version: then they are encoded with it, decoded as themselves, and can be sent. -/
theorem durable_snapshot_travels (h : Durable sha256 snapshot) :
    (∃ bytes, encodeVersionedSnapshot snapshot = .ok bytes ∧
      decodeVersionedSnapshot bytes = .ok snapshot ∧
      ∃ message, encodeSnapshotMessage (.snapshot snapshot) = .ok message) ↔
    encodedSize snapshot.snapshot + 8 ≤ maxSnapshotBytes := by
  obtain ⟨payload, hPayload⟩ := h.encodes
  have hForm := encodeVersionedSnapshot_of_encodes hPayload
  constructor
  · rintro ⟨_, hEncoded, -⟩
    by_contra hLarge
    rw [hForm, if_neg hLarge] at hEncoded
    cases hEncoded
  · intro hSize
    rw [if_pos hSize] at hForm
    refine ⟨_, hForm, decodeVersionedSnapshot_encode hForm, ?_⟩
    -- the message adds its header to the payload that it checks
    have hTotal : ¬maxSnapshotBytes < (be 8 snapshot.version.value ++ payload).length := by
      rw [(encodeSnapshot_eq_ok hPayload).1, length_append, length_be, length_snapshotBytes]
      omega
    rw [encodeSnapshotMessage, SnapshotMessage.payload, hForm, ok_bind]
    dsimp only
    rw [if_neg hTotal]
    exact ⟨_, rfl⟩

end

namespace FormExample

def certificate (byte : UInt8) : CertificateFingerprint := ⟨List.replicate 32 byte, by simp⟩

def tunnelId : TunnelId := ⟨[119], DurableId.valid_w⟩

def first : AgentGrant := ⟨certificate 1, ⟨[97], DurableId.valid_a⟩, [⟨tunnelId, .enabled⟩]⟩

def second : AgentGrant := ⟨certificate 2, ⟨[98], by decide⟩, [⟨tunnelId, .disabled⟩]⟩

/-- The snapshot of the two grants. -/
def both : AuthorizationSnapshot :=
  ⟨ofList
    [(certificate 1, AuthorizedAgent.mk first.agentId
        (ofList [(tunnelId, TunnelStatus.enabled)])),
      (certificate 2, ⟨second.agentId, ofList [(tunnelId, TunnelStatus.disabled)]⟩)]⟩

theorem grants_both : both.grants = [first, second] := by decide +kernel

theorem encodes_both : ∃ bytes, encodeSnapshot both = .ok bytes := by
  have hEncoded : (encodeSnapshot both).isOk = true := by decide +kernel
  cases hBytes : encodeSnapshot both with
  | error =>
    rw [hBytes] at hEncoded
    cases hEncoded
  | ok bytes => exact ⟨bytes, rfl⟩

end FormExample

open FormExample in
/-- Two grants, committed to a new database, travel. -/
theorem durable_snapshot_travels_both :
    ∃ (current : VersionedAuthorizationSnapshot) (bytes : List UInt8) (tables : SnapshotTables),
      current.snapshot = both ∧
      SnapshotTables.commit (fun _ => certificate 0) ⟨none, [], []⟩ current =
        (.ok (.applied none current.version), tables) ∧
      encodeVersionedSnapshot current = .ok bytes ∧
      decodeVersionedSnapshot bytes = .ok current := by
  let current : VersionedAuthorizationSnapshot := ⟨⟨1, by decide, by decide⟩, both⟩
  obtain ⟨payload, hPayload⟩ := encodes_both
  have hDigest : snapshotDigest (fun _ => certificate 0) current.snapshot =
      .ok (certificate 0) := by
    rw [snapshotDigest, hPayload]
    rfl
  have hCommit : SnapshotTables.commit (fun _ => certificate 0) ⟨none, [], []⟩ current = _ :=
    SnapshotTables.commit_first rfl hDigest
  have hSize : encodedSize current.snapshot + 8 ≤ maxSnapshotBytes := by
    rw [encodedSize, grants_both]
    decide
  obtain ⟨bytes, hEncoded, hDecoded, -⟩ :=
    (durable_snapshot_travels (.commit _ _ _ hCommit)).mpr hSize
  exact ⟨current, bytes, _, rfl, hCommit, hEncoded, hDecoded⟩

/-! ## The last eight sizes -/

namespace LargeExample

open FormExample (certificate)

/-- The low 64 bits of a number, as a text of zeros and ones. -/
def bits (n : Nat) : Text := (List.range 64).map fun k => if n.testBit k then 49 else 48

theorem bits_injective {m n : Nat} (hm : m < 2 ^ 64) (hn : n < 2 ^ 64) (h : bits m = bits n) :
    m = n := by
  refine Nat.eq_of_testBit_eq fun k => ?_
  by_cases hk : k < 64
  · have hBit := map_inj_left.mp h k (mem_range.mpr hk)
    cases hmk : m.testBit k <;> cases hnk : n.testBit k <;> simp_all
  · have hPow : 2 ^ 64 ≤ 2 ^ k := Nat.pow_le_pow_right (by decide) (Nat.not_lt.mp hk)
    rw [Nat.testBit_lt_two_pow (hm.trans_le hPow), Nat.testBit_lt_two_pow (hn.trans_le hPow)]

def tunnelId (n : Nat) : TunnelId where
  text := bits n
  valid := by
    refine DurableId.valid_iff.mpr ⟨by simp [bits], by simp [bits, maxDurableIdBytes], ?_⟩
    intro _ hByte
    obtain ⟨_, -, rfl⟩ := mem_map.mp hByte
    split_ifs <;> decide

/-- 3912 tunnels with identifiers of 64 bytes. Nothing should ever evaluate this map. -/
@[irreducible]
def tunnels : ExtTreeMap TunnelId TunnelStatus :=
  ofList ((List.range 3912).map fun n => (tunnelId n, TunnelStatus.enabled))

def agent : AuthorizedAgent := ⟨⟨[119, 101, 98], by decide⟩, tunnels⟩

/-- Four certificates of one Agent with all these tunnels. -/
def snapshot : AuthorizationSnapshot :=
  ⟨ofList ([1, 2, 3, 4].map fun byte => (certificate byte, agent))⟩

theorem size_tunnels : tunnels.size = 3912 := by
  have hDistinct : ((List.range 3912).map fun n => (tunnelId n, TunnelStatus.enabled)).Pairwise
      fun a b => ¬compare a.1 b.1 = .eq := by
    refine pairwise_map.mpr (nodup_range.imp_of_mem fun {m n} hm hn hNe hEq => hNe ?_)
    have hBits : bits m = bits n := congrArg DurableId.text (Std.compare_eq_iff_eq.mp hEq)
    rw [mem_range] at hm hn
    exact bits_injective (by omega) (by omega) hBits
  rw [tunnels, size_ofList hDistinct, length_map, length_range]

theorem length_of_mem_tunnels {id : TunnelId} (h : id ∈ tunnels) : id.text.length = 64 := by
  obtain ⟨n, -, rfl⟩ : ∃ n ∈ List.range 3912, tunnelId n = id := by
    unfold tunnels at h
    simpa [mem_ofList] using h
  simp [tunnelId, bits]

theorem grants_eq : snapshot.grants =
    [1, 2, 3, 4].map fun byte => grantOf (certificate byte, agent) := rfl

/-- A sum of equal numbers. -/
theorem sum_map_eq {α : Type} {l : List α} {f : α → Nat} {c : Nat} (h : ∀ a ∈ l, f a = c) :
    (l.map f).sum = l.length * c := by
  rw [map_congr_left h, map_const', sum_replicate_nat]

theorem length_tunnels (certificate : CertificateFingerprint) :
    (grantOf (certificate, agent)).tunnels.length = 3912 := by
  rw [grantOf, length_map, length_toList]
  exact size_tunnels

/-- The size of a certificate whose tunnels have identifiers of 64 bytes. -/
theorem grantSize_of_length {agent : AuthorizedAgent} (certificate : CertificateFingerprint)
    (h : ∀ id ∈ agent.tunnels, id.text.length = 64) :
    grantSize (grantOf (certificate, agent)) =
      36 + agent.agentId.text.length + agent.tunnels.size * 67 := by
  have hTunnels : ((grantOf (certificate, agent)).tunnels.map tunnelSize).sum =
      agent.tunnels.size * 67 := by
    rw [sum_map_eq (c := 67), grantOf, length_map,
      length_toList]
    intro _ hTunnel
    obtain ⟨⟨id, status⟩, hMem, rfl⟩ := mem_map.mp hTunnel
    have hId : id ∈ agent.tunnels :=
      TreeMap.mem_iff_exists.mpr ⟨status, mem_toList_iff_getElem?_eq_some.mp hMem⟩
    rw [tunnelSize, h id hId]
  rw [grantSize, hTunnels, grantOf]

/-- One certificate takes 262143 bytes: 39 and 67 for each tunnel. -/
theorem grantSize_eq (certificate : CertificateFingerprint) :
    grantSize (grantOf (certificate, agent)) = 262143 := by
  have hAgent : agent.agentId.text.length = 3 := rfl
  have hSize : agent.tunnels.size = 3912 := size_tunnels
  rw [grantSize_of_length certificate fun _ => length_of_mem_tunnels, hAgent, hSize]

/-- The whole snapshot takes 1 MiB to the byte. -/
theorem encodedSize_eq : encodedSize snapshot = maxSnapshotBytes := by
  have hGrants : (snapshot.grants.map grantSize).sum = 4 * 262143 := by
    simp only [grants_eq, map_cons, map_nil, grantSize_eq, sum_cons, sum_nil]
    omega
  rw [encodedSize, hGrants, maxSnapshotBytes]

theorem encodes : encodeSnapshot snapshot = .ok (snapshotBytes snapshot) := by
  refine encodeSnapshot_of_size ⟨?_, fun grant hGrant => ?_⟩ ?_
  · rw [grants_eq]
    decide
  · rw [grants_eq] at hGrant
    obtain ⟨_, -, rfl⟩ := mem_map.mp hGrant
    rw [length_tunnels]
    decide
  · rw [length_snapshotBytes, encodedSize_eq]

theorem digest_eq (sha256 : Hash) :
    snapshotDigest sha256 snapshot = .ok (sha256 (snapshotBytes snapshot)) := by
  rw [snapshotDigest, encodes]
  rfl

theorem tooLarge (version : SnapshotVersion) :
    encodeVersionedSnapshot ⟨version, snapshot⟩ = .error (.tooLarge (maxSnapshotBytes + 8)) := by
  rw [encodeVersionedSnapshot_of_encodes encodes, encodedSize_eq, if_neg (by omega)]

end LargeExample

/-- A snapshot whose canonical form has exactly 1 MiB is, whatever the hash, committed to a
new database, and accepted as a replacement by the enrollment repository; with its version it
is too large to be encoded, and so for any message. -/
theorem durable_snapshot_stuck : ∃ snapshot : VersionedAuthorizationSnapshot,
      (∀ sha256 : Hash, ∃ tables, SnapshotTables.commit sha256 ⟨none, [], []⟩ snapshot =
        (.ok (.applied none snapshot.version), tables)) ∧
      (∀ (sha256 : Hash) (db : Enrollment.Db),
        ∃ db', Enrollment.replaceSnapshot sha256 db snapshot = .ok db') ∧
      encodeVersionedSnapshot snapshot = .error (.tooLarge (maxSnapshotBytes + 8)) ∧
      encodeSnapshotMessage (.snapshot snapshot) =
        .error (.snapshot (.tooLarge (maxSnapshotBytes + 8))) := by
  refine ⟨⟨⟨1, by decide, by decide⟩, LargeExample.snapshot⟩,
    fun sha256 => ⟨_, SnapshotTables.commit_first rfl (LargeExample.digest_eq sha256)⟩,
    fun sha256 db => ⟨_, by rw [Enrollment.replaceSnapshot, LargeExample.digest_eq]⟩,
    LargeExample.tooLarge _, ?_⟩
  rw [encodeSnapshotMessage, SnapshotMessage.payload, LargeExample.tooLarge]
  rfl

end TunnelProxy.Control
