import Mathlib.Tactic.NormNum
import TunnelProxy.Lib.Reader
import TunnelProxy.Control.SnapshotStore

/-!
# The snapshot codec

Decoding of the canonical encoding, and the form with the version in front that is sent to
an Edge and kept in its cache. `snapshotBytes` is the encoding without its size checks.

* `encodeSnapshot_eq_ok`, `encodeSnapshot_of_size` — what is encoded, and that what is small
  enough is encoded
* `decodeSnapshot_bytes` — decoding undoes encoding, up to the size limit
* `encodeSnapshot_injective` — a snapshot is determined by its encoding
* `decodeVersionedSnapshot_encode` — the same for the versioned form
-/

namespace TunnelProxy.Control

open Common BigEndian List DurableId

/-! ## Decoding -/

/-- `Input::id` -/
def readId (input : List UInt8) : Except SnapshotCodecError (Text × List UInt8) := do
  let (length, rest) ← Reader.number .truncated 2 input
  let (bytes, rest) ← Reader.takeBytes .truncated length rest
  if Reader.isUtf8 bytes then return (bytes, rest) else .error .invalidUtf8

def readDurableId {kind : IdKind} (input : List UInt8) :
    Except SnapshotCodecError (DurableId kind × List UInt8) := do
  let (text, rest) ← readId input
  match DurableId.new text with
  | .ok id => return (id, rest)
  | .error _ => .error .invalidId

def readStatus (input : List UInt8) : Except SnapshotCodecError (TunnelStatus × List UInt8) := do
  let (byte, rest) ← Reader.number .truncated 1 input
  if byte = 1 then return (.enabled, rest)
  else if byte = 2 then return (.disabled, rest)
  else .error .invalidStatus

def readTunnel (input : List UInt8) : Except SnapshotCodecError (TunnelGrant × List UInt8) := do
  let (tunnelId, rest) ← readDurableId input
  let (status, rest) ← readStatus rest
  return (⟨tunnelId, status⟩, rest)

def readFingerprint (input : List UInt8) :
    Except SnapshotCodecError (CertificateFingerprint × List UInt8) :=
  if h : input.length < 32 then .error .truncated
  else .ok (⟨input.take 32, by rw [length_take]; omega⟩, input.drop 32)

def readGrant (input : List UInt8) : Except SnapshotCodecError (AgentGrant × List UInt8) := do
  let (certificate, rest) ← readFingerprint input
  let (agentId, rest) ← readDurableId rest
  let (tunnelCount, rest) ← Reader.number .truncated 2 rest
  if maxTunnelsPerAgent < tunnelCount then .error (.tooManyTunnels tunnelCount)
  else do
    let (tunnels, rest) ← Reader.many readTunnel tunnelCount rest
    return (⟨certificate, agentId, tunnels⟩, rest)

/-- `decode_snapshot` after its size check. -/
def decodeGrants (bytes : List UInt8) : Except SnapshotCodecError AuthorizationSnapshot := do
  let (agentCount, rest) ← Reader.number .truncated 4 bytes
  if maxAgentsPerSnapshot < agentCount then .error (.tooManyAgents agentCount)
  else do
    let (grants, rest) ← Reader.many readGrant agentCount rest
    if !rest.isEmpty then .error .trailingBytes
    else match AuthorizationSnapshot.new grants with
      | .ok snapshot => .ok snapshot
      | .error error => .error (.invalidSnapshot error)

def decodeSnapshot (bytes : List UInt8) : Except SnapshotCodecError AuthorizationSnapshot :=
  if maxSnapshotBytes < bytes.length then .error (.tooLarge bytes.length) else decodeGrants bytes

def encodeVersionedSnapshot (snapshot : VersionedAuthorizationSnapshot) :
    Except SnapshotCodecError (List UInt8) := do
  let payload ← encodeSnapshot snapshot.snapshot
  let total := payload.length + 8
  if maxSnapshotBytes < total then .error (.tooLarge total)
  else return be 8 snapshot.version.value ++ payload

def decodeVersionedSnapshot (bytes : List UInt8) :
    Except SnapshotCodecError VersionedAuthorizationSnapshot :=
  if maxSnapshotBytes < bytes.length then .error (.tooLarge bytes.length)
  else do
    let (version, rest) ← Reader.number .truncated 8 bytes
    match SnapshotVersion.new version with
    | none => .error .invalidVersion
    | some version =>
      let snapshot ← decodeSnapshot rest
      return ⟨version, snapshot⟩

/-! ## The encoding as a function of the grants -/

/-- The encoding of a tunnel, of a grant and of a snapshot. -/
def tunnelBytes (tunnel : TunnelGrant) : List UInt8 :=
  pushId [] tunnel.tunnelId.text ++ [statusByte tunnel.status]

@[inherit_doc tunnelBytes]
def grantBytes (grant : AgentGrant) : List UInt8 :=
  pushId grant.certificate.bytes grant.agentId.text ++ be 2 grant.tunnels.length ++
    grant.tunnels.flatMap tunnelBytes

@[inherit_doc tunnelBytes]
def snapshotBytes (snapshot : AuthorizationSnapshot) : List UInt8 :=
  be 4 snapshot.grants.length ++ snapshot.grants.flatMap grantBytes

/-- The counts are within the limits. -/
structure Countable (snapshot : AuthorizationSnapshot) : Prop where
  agents : snapshot.grants.length ≤ maxAgentsPerSnapshot
  tunnels : ∀ grant ∈ snapshot.grants, grant.tunnels.length ≤ maxTunnelsPerAgent

variable {output bytes : List UInt8} {tunnels : List TunnelGrant} {grants : List AgentGrant}

theorem pushId_append (output : List UInt8) (value : Text) :
    pushId output value = output ++ pushId [] value := by
  simp [pushId]

/-- A size check that passes changes nothing. -/
theorem ensureEncodedSize_bind {α : Type} {f : Unit → Except SnapshotCodecError α} {a : α} :
    ensureEncodedSize output >>= f = .ok a ↔ output.length ≤ maxSnapshotBytes ∧ f () = .ok a := by
  unfold ensureEncodedSize
  split_ifs with hLarge
  · exact ⟨nofun, fun h => absurd h.1 (Nat.not_le.mpr hLarge)⟩
  · exact ⟨fun h => ⟨Nat.not_lt.mp hLarge, h⟩, fun h => h.2⟩

/-- What the loop over the tunnels has appended when it succeeds. -/
theorem encodeTunnels_eq_ok (h : encodeTunnels output tunnels = .ok bytes) :
    bytes = output ++ tunnels.flatMap tunnelBytes := by
  induction tunnels generalizing output with
  | nil =>
    cases h
    simp
  | cons _ _ ih =>
    obtain ⟨-, hRest⟩ := ensureEncodedSize_bind.mp h
    rw [ih hRest, pushId_append, flatMap_cons, tunnelBytes]
    simp only [append_assoc]

/-- The output only grows, so the last of its checks decides. -/
theorem encodeTunnels_of_size
    (h : (output ++ tunnels.flatMap tunnelBytes).length ≤ maxSnapshotBytes) :
    encodeTunnels output tunnels = .ok (output ++ tunnels.flatMap tunnelBytes) := by
  induction tunnels generalizing output with
  | nil => simp [encodeTunnels]
  | cons tunnel rest ih =>
    have hStep : output ++ (tunnel :: rest).flatMap tunnelBytes =
        (pushId output tunnel.tunnelId.text ++ [statusByte tunnel.status]) ++
          rest.flatMap tunnelBytes := by
      rw [pushId_append, flatMap_cons, tunnelBytes]
      simp only [append_assoc]
    rw [hStep] at h ⊢
    refine ensureEncodedSize_bind.mpr ⟨?_, ih h⟩
    rw [length_append] at h
    omega

/-- The loop over the grants checks the number of their tunnels as well. -/
theorem encodeGrants_eq_ok (h : encodeGrants output grants = .ok bytes) :
    bytes = output ++ grants.flatMap grantBytes ∧
      ∀ grant ∈ grants, grant.tunnels.length ≤ maxTunnelsPerAgent := by
  -- the output so far is the accumulator of the loop
  induction grants generalizing output with
  | nil =>
    cases h
    simp
  | cons grant _ ih =>
    obtain ⟨-, h⟩ := ensureEncodedSize_bind.mp h
    split_ifs at h with hTunnels
    · cases h
    · obtain ⟨_, hMiddle, hRest⟩ := bind_eq_ok.mp h
      obtain ⟨hBytes, hCounts⟩ := ih hRest
      refine ⟨?_, forall_mem_cons.mpr ⟨Nat.not_lt.mp hTunnels, hCounts⟩⟩
      rw [hBytes, encodeTunnels_eq_ok hMiddle, flatMap_cons, grantBytes,
        pushId_append (output ++ _), pushId_append grant.certificate.bytes]
      simp only [append_assoc]

theorem encodeGrants_of_size
    (hSize : (output ++ grants.flatMap grantBytes).length ≤ maxSnapshotBytes)
    (hCounts : ∀ grant ∈ grants, grant.tunnels.length ≤ maxTunnelsPerAgent) :
    encodeGrants output grants = .ok (output ++ grants.flatMap grantBytes) := by
  induction grants generalizing output with
  | nil => simp [encodeGrants]
  | cons grant rest ih =>
    obtain ⟨hCount, hCounts⟩ := forall_mem_cons.mp hCounts
    have hStep : output ++ (grant :: rest).flatMap grantBytes =
        ((pushId (output ++ grant.certificate.bytes) grant.agentId.text ++
          be 2 grant.tunnels.length) ++ grant.tunnels.flatMap tunnelBytes) ++
          rest.flatMap grantBytes := by
      rw [flatMap_cons, grantBytes, pushId_append (output ++ _),
        pushId_append grant.certificate.bytes]
      simp only [append_assoc]
    rw [hStep] at hSize ⊢
    -- both checks of this round see a part of the final output
    have hPrefix := hSize
    rw [length_append, length_append, length_append] at hPrefix
    refine ensureEncodedSize_bind.mpr ⟨by omega, ?_⟩
    rw [if_neg (Nat.not_lt.mpr hCount)]
    refine bind_eq_ok.mpr ⟨_, encodeTunnels_of_size ?_, ih hSize hCounts⟩
    rw [length_append] at hSize
    omega

variable {snapshot other : AuthorizationSnapshot}

/-- Whatever is encoded is `snapshotBytes`. -/
theorem encodeSnapshot_eq_ok (h : encodeSnapshot snapshot = .ok bytes) :
    bytes = snapshotBytes snapshot ∧ Countable snapshot := by
  unfold encodeSnapshot at h
  dsimp only at h
  split_ifs at h with hAgents
  obtain ⟨hBytes, hTunnels⟩ := encodeGrants_eq_ok h
  exact ⟨hBytes, Nat.not_lt.mp hAgents, hTunnels⟩

/-- What is small enough is encoded. -/
theorem encodeSnapshot_of_size (hCounts : Countable snapshot)
    (hSize : (snapshotBytes snapshot).length ≤ maxSnapshotBytes) :
    encodeSnapshot snapshot = .ok (snapshotBytes snapshot) := by
  unfold encodeSnapshot
  dsimp only
  rw [if_neg (Nat.not_lt.mpr hCounts.agents)]
  exact encodeGrants_of_size hSize hCounts.tunnels

/-! ## Round trips -/

/-- Identifiers are ASCII. -/
theorem isUtf8_durableId {kind : IdKind} (id : DurableId kind) : Reader.isUtf8 id.text = true := by
  refine Reader.isUtf8_of_ascii fun byte hByte => ?_
  have hAscii : ∀ byte, isDurableIdByte byte → byte < 0x80 := by decide +kernel
  exact hAscii byte ((valid_iff.mp id.valid).2.2 byte hByte)

theorem readDurableId_undoes {kind : IdKind} (id : DurableId kind) :
    Reader.Undoes readDurableId (fun id : DurableId kind => pushId [] id.text) id := by
  intro _
  have hLength : id.text.length < 256 ^ 2 := by
    have hShort : id.text.length ≤ 64 := (valid_iff.mp id.valid).2.1
    omega
  simp only [readDurableId, readId, pushId, nil_append, append_assoc,
    Reader.number_be hLength, ok_bind, Reader.takeBytes_append rfl, isUtf8_durableId, if_true,
    pure_bind, new_text]
  rfl

/-- Reading undoes writing, for each part of a snapshot. -/
theorem readTunnel_undoes (tunnel : TunnelGrant) : Reader.Undoes readTunnel tunnelBytes tunnel := by
  intro rest
  have hStatus : readStatus ([statusByte tunnel.status] ++ rest) = .ok (tunnel.status, rest) := by
    cases tunnel.status <;> rfl
  rw [readTunnel, tunnelBytes, append_assoc, readDurableId_undoes tunnel.tunnelId, ok_bind]
  simp only [hStatus, ok_bind]
  rfl

@[inherit_doc readTunnel_undoes]
theorem readGrant_undoes (grant : AgentGrant) (h : grant.tunnels.length ≤ maxTunnelsPerAgent) :
    Reader.Undoes readGrant grantBytes grant := by
  intro rest
  have hCertificate : ∀ after, readFingerprint (grant.certificate.bytes ++ after) =
      .ok (grant.certificate, after) := by
    intro after
    have hLength := grant.certificate.length_eq
    have hLong : ¬(grant.certificate.bytes ++ after).length < 32 := by
      rw [length_append]
      omega
    unfold readFingerprint
    rw [dif_neg hLong]
    congr 2
    · exact FixedBytes.ext (take_left' hLength)
    · exact drop_left' hLength
  have hCount : grant.tunnels.length < 256 ^ 2 := by
    unfold maxTunnelsPerAgent at h
    omega
  have hTunnels : Reader.many readTunnel grant.tunnels.length
      (grant.tunnels.flatMap tunnelBytes ++ rest) = .ok (grant.tunnels, rest) :=
    Reader.Undoes.many (fun tunnel _ => readTunnel_undoes tunnel) rest
  rw [readGrant, grantBytes, pushId_append]
  simp only [append_assoc, hCertificate, ok_bind, readDurableId_undoes grant.agentId _,
    Reader.number_be hCount, if_neg (Nat.not_lt.mpr h), hTunnels]
  rfl

/-- Without the size check, decoding undoes encoding for every snapshot. -/
theorem decodeGrants_bytes (h : Countable snapshot) :
    decodeGrants (snapshotBytes snapshot) = .ok snapshot := by
  have hCount : snapshot.grants.length < 256 ^ 4 := by
    have := h.agents
    unfold maxAgentsPerSnapshot at this
    omega
  have hGrants : Reader.many readGrant snapshot.grants.length
      (snapshot.grants.flatMap grantBytes ++ []) = .ok (snapshot.grants, []) :=
    Reader.Undoes.many (fun grant hGrant => readGrant_undoes grant (h.tunnels grant hGrant)) []
  rw [append_nil] at hGrants
  simp only [decodeGrants, snapshotBytes, Reader.number_be hCount, ok_bind,
    if_neg (Nat.not_lt.mpr h.agents), hGrants, isEmpty_nil, Bool.not_true, Bool.false_eq_true,
    if_false, AuthorizationSnapshot.new_grants]

/-- Decoding undoes encoding, up to the size limit. -/
theorem decodeSnapshot_bytes (h : Countable snapshot)
    (hSize : (snapshotBytes snapshot).length ≤ maxSnapshotBytes) :
    decodeSnapshot (snapshotBytes snapshot) = .ok snapshot := by
  rw [decodeSnapshot, if_neg (Nat.not_lt.mpr hSize), decodeGrants_bytes h]

/-- **A snapshot is determined by its encoding.** -/
theorem encodeSnapshot_injective (h : encodeSnapshot snapshot = .ok bytes)
    (hOther : encodeSnapshot other = .ok bytes) : snapshot = other := by
  obtain ⟨rfl, hCounts⟩ := encodeSnapshot_eq_ok h
  obtain ⟨hBytes, hCounts'⟩ := encodeSnapshot_eq_ok hOther
  -- the size limit plays no part: `decodeGrants` reads what is too large for `decodeSnapshot`
  have hDecoded := decodeGrants_bytes hCounts
  rw [hBytes, decodeGrants_bytes hCounts'] at hDecoded
  exact (Except.ok.inj hDecoded).symm

theorem SnapshotVersion.new_value (version : SnapshotVersion) :
    SnapshotVersion.new version.value = some version :=
  dif_pos ⟨version.pos, version.lt⟩

/-- What is encoded with its version in front is decoded again. -/
theorem decodeVersionedSnapshot_encode {current : VersionedAuthorizationSnapshot}
    (h : encodeVersionedSnapshot current = .ok bytes) :
    decodeVersionedSnapshot bytes = .ok current := by
  obtain ⟨_, hPayload, h⟩ := bind_eq_ok.mp h
  dsimp only at h
  split_ifs at h with hLarge
  cases h
  obtain ⟨rfl, hCounts⟩ := encodeSnapshot_eq_ok hPayload
  have hTotal : ¬maxSnapshotBytes <
      (be 8 current.version.value ++ snapshotBytes current.snapshot).length := by
    rw [length_append, length_be]
    omega
  have hVersion : current.version.value < 256 ^ 8 := current.version.lt.trans_eq (by norm_num)
  rw [decodeVersionedSnapshot, if_neg hTotal, Reader.number_be hVersion, ok_bind]
  simp only [current.version.new_value, decodeSnapshot_bytes hCounts (by omega), ok_bind]
  rfl

end TunnelProxy.Control
