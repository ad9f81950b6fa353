import TunnelProxy.Lib.Decimal
import TunnelProxy.Control.SnapshotCodec

/-!
# The records of the snapshot cache

A generation file holds one versioned snapshot, the time at which its source was
authenticated, and a digest. Its name repeats the version and the time. Times are
nanoseconds since the Unix epoch; a record keeps whole milliseconds.

* `decodeCacheRecord_encode` — a record is read back, with its time cut to milliseconds
* `cache_record_exact` — nothing else is read
* `generationVersion_tpc` — the name of a generation file gives its version
-/

namespace TunnelProxy.Control

open Common BigEndian List

inductive SnapshotCacheError where
  | missing
  | expired
  | futureTimestamp
  | timestamp
  | tooLarge
  | truncated
  | trailingBytes
  | magic
  | formatVersion
  | flags
  | digest
  | nonCanonical
  | filename
  | filenameVersion
  | staleVersion (current received : Nat)
  | conflictingVersion (version : Nat)
  | codec (error : SnapshotCodecError)
  | io
deriving DecidableEq

/-- The errors that say something about the files, and not about what they hold. -/
def SnapshotCacheError.ofReading : SnapshotCacheError → Bool
  | .missing | .staleVersion _ _ | .conflictingVersion _ => false
  | _ => true

/-! ## Records -/

/-- "TPC1" -/
def cacheMagic : List UInt8 := [84, 80, 67, 49]

def cacheFormatVersion : Nat := 1

def cacheFlags : Nat := 0

def metadataBytes : Nat := 20

def digestBytes : Nat := 32

def cacheHeaderBytes : Nat := metadataBytes + digestBytes

def maxCacheBytes : Nat := cacheHeaderBytes + maxSnapshotBytes

structure CachedSnapshot where
  snapshot : VersionedAuthorizationSnapshot
  authenticatedAt : Int
deriving DecidableEq

def nanosPerMilli : Nat := 1000000

def unixMillis (time : Int) : Except SnapshotCacheError Nat :=
  if time < 0 then .error .timestamp
  else
    let millis := time.toNat / nanosPerMilli
    if millis < 2 ^ 64 then .ok millis else .error .timestamp

def cacheMetadata (millis payloadLen : Nat) : List UInt8 :=
  cacheMagic ++ (be 2 cacheFormatVersion ++ (be 2 cacheFlags ++ (be 8 millis ++ be 4 payloadLen)))

def encodeCacheRecord (sha256 : Hash) (snapshot : VersionedAuthorizationSnapshot)
    (authenticatedAt : Int) : Except SnapshotCacheError (List UInt8) :=
  match encodeVersionedSnapshot snapshot with
  | .error error => .error (.codec error)
  | .ok payload =>
    if 2 ^ 32 ≤ payload.length then .error .tooLarge
    else do
      let millis ← unixMillis authenticatedAt
      let metadata := cacheMetadata millis payload.length
      let output := metadata ++ ((sha256 (metadata ++ payload)).bytes ++ payload)
      if maxCacheBytes < output.length then .error .tooLarge else .ok output

/-- `bytes[start..stop]` -/
def slice (bytes : List UInt8) (start stop : Nat) : List UInt8 :=
  (bytes.drop start).take (stop - start)

/-- The end of `decode_cache_record`: the payload is canonical and its time has come. The
times of records are far from the ends of `SystemTime`. -/
def decodeCachePayload (payload : List UInt8) (timestamp : Nat) (now : Int) :
    Except SnapshotCacheError CachedSnapshot :=
  match decodeVersionedSnapshot payload with
  | .error error => .error (.codec error)
  | .ok snapshot =>
    match encodeVersionedSnapshot snapshot with
    | .error error => .error (.codec error)
    | .ok canonical =>
      if canonical ≠ payload then .error .nonCanonical
      else
        let authenticatedAt : Int := timestamp * nanosPerMilli
        if now < authenticatedAt then .error .futureTimestamp
        else .ok ⟨snapshot, authenticatedAt⟩

def decodeCacheRecord (sha256 : Hash) (bytes : List UInt8) (now : Int) :
    Except SnapshotCacheError CachedSnapshot :=
  if maxCacheBytes < bytes.length then .error .tooLarge
  else if bytes.length < cacheHeaderBytes then .error .truncated
  else if slice bytes 0 4 ≠ cacheMagic then .error .magic
  else if readBE (slice bytes 4 6) ≠ cacheFormatVersion then .error .formatVersion
  else if readBE (slice bytes 6 8) ≠ cacheFlags then .error .flags
  else
    let timestamp := readBE (slice bytes 8 16)
    let payloadLen := readBE (slice bytes 16 20)
    let expectedLen := cacheHeaderBytes + payloadLen
    let payload := bytes.drop cacheHeaderBytes
    if expectedLen ≠ bytes.length then
      .error (if bytes.length < expectedLen then .truncated else .trailingBytes)
    else if (sha256 (slice bytes 0 metadataBytes ++ payload)).bytes ≠
        slice bytes metadataBytes cacheHeaderBytes then .error .digest
    else decodeCachePayload payload timestamp now

section

variable {sha256 : Hash} {snapshot : VersionedAuthorizationSnapshot} {time now : Int}
  {bytes digest rest : List UInt8} {millis i j : Nat} {error : SnapshotCacheError}
  {cached : CachedSnapshot}

theorem unixMillis_eq_ok (h : unixMillis time = .ok millis) :
    millis < 2 ^ 64 ∧ (millis * nanosPerMilli : Int) ≤ time := by
  unfold unixMillis at h
  dsimp only at h
  split_ifs at h with hNegative hFits
  cases h
  refine ⟨hFits, ?_⟩
  have hFloor := Nat.div_mul_le_self time.toNat nanosPerMilli
  omega

theorem unixMillis_error (h : unixMillis time = .error error) : error.ofReading := by
  unfold unixMillis at h
  dsimp only at h
  split_ifs at h <;> cases h <;> rfl

/-- The parts of a record. -/
theorem encodeCacheRecord_eq_ok (h : encodeCacheRecord sha256 snapshot time = .ok bytes) :
    ∃ payload millis, encodeVersionedSnapshot snapshot = .ok payload ∧
      payload.length < 2 ^ 32 ∧ unixMillis time = .ok millis ∧ bytes.length ≤ maxCacheBytes ∧
      bytes = cacheMetadata millis payload.length ++
        ((sha256 (cacheMetadata millis payload.length ++ payload)).bytes ++ payload) := by
  unfold encodeCacheRecord at h
  split at h
  · cases h
  · rename_i payload hPayload
    split_ifs at h with hLong
    obtain ⟨millis, hMillis, h⟩ := bind_eq_ok.mp h
    dsimp only at h
    split_ifs at h with hLarge
    cases h
    exact ⟨payload, millis, hPayload, Nat.lt_of_not_le hLong, hMillis, Nat.le_of_not_lt hLarge, rfl⟩

theorem slice_front {a : List UInt8} {stop : Nat} (h : a.length = stop) :
    slice (a ++ rest) 0 stop = a := by
  rw [slice, drop_zero, Nat.sub_zero, take_left' h]

theorem slice_skip {a : List UInt8} {k : Nat} (h : a.length = k) (i j : Nat) :
    slice (a ++ rest) (k + i) (k + j) = slice rest i j := by
  rw [slice, slice, ← drop_drop, drop_left' h, Nat.add_sub_add_left]

@[simp]
theorem length_cacheMetadata (millis payloadLen : Nat) :
    (cacheMetadata millis payloadLen).length = metadataBytes := by
  simp [cacheMetadata, cacheMagic, metadataBytes]

/-- The fields of a record are where the decoder looks for them. -/
theorem slice_cacheRecord (millis payloadLen : Nat) (payload : List UInt8)
    (hDigest : digest.length = digestBytes) :
    let bytes := cacheMetadata millis payloadLen ++ (digest ++ payload)
    slice bytes 0 4 = cacheMagic ∧ slice bytes 4 6 = be 2 cacheFormatVersion ∧
      slice bytes 6 8 = be 2 cacheFlags ∧ slice bytes 8 16 = be 8 millis ∧
      slice bytes 16 20 = be 4 payloadLen ∧
      slice bytes 0 metadataBytes = cacheMetadata millis payloadLen ∧
      slice bytes metadataBytes cacheHeaderBytes = digest ∧
      bytes.drop cacheHeaderBytes = payload := by
  have hMagic : cacheMagic.length = 4 := rfl
  have hTwo : ∀ n, (be 2 n).length = 2 := length_be 2
  have hMetadata : (cacheMetadata millis payloadLen).length = metadataBytes :=
    length_cacheMetadata millis payloadLen
  refine ⟨?_, ?_, ?_, ?_, ?_, slice_front hMetadata, ?_, ?_⟩
  · rw [cacheMetadata, append_assoc]
    exact slice_front hMagic
  · rw [cacheMetadata, append_assoc, append_assoc]
    exact (slice_skip hMagic 0 2).trans (slice_front (hTwo _))
  · simp only [cacheMetadata, append_assoc]
    exact (slice_skip hMagic 2 4).trans ((slice_skip (hTwo _) 0 2).trans (slice_front (hTwo _)))
  · simp only [cacheMetadata, append_assoc]
    exact (slice_skip hMagic 4 12).trans ((slice_skip (hTwo _) 2 10).trans
      ((slice_skip (hTwo _) 0 8).trans (slice_front (length_be 8 _))))
  · simp only [cacheMetadata, append_assoc]
    exact (slice_skip hMagic 12 16).trans ((slice_skip (hTwo _) 10 14).trans
      ((slice_skip (hTwo _) 8 12).trans ((slice_skip (length_be 8 _) 0 4).trans
        (slice_front (length_be 4 _)))))
  · exact (slice_skip hMetadata 0 digestBytes).trans (slice_front hDigest)
  · rw [← append_assoc]
    exact drop_left' (by rw [length_append, hMetadata, hDigest]; rfl)

/-- The header of a record is right, and so are its length and its digest. -/
structure Framed (sha256 : Hash) (bytes : List UInt8) : Prop where
  length_le : bytes.length ≤ maxCacheBytes
  magic : slice bytes 0 4 = cacheMagic
  format : readBE (slice bytes 4 6) = cacheFormatVersion
  flags : readBE (slice bytes 6 8) = cacheFlags
  length : cacheHeaderBytes + readBE (slice bytes 16 20) = bytes.length
  digest : (sha256 (slice bytes 0 metadataBytes ++ bytes.drop cacheHeaderBytes)).bytes =
    slice bytes metadataBytes cacheHeaderBytes

/-- A record is refused for its form, or its payload is decoded. -/
theorem decodeCacheRecord_cases (sha256 : Hash) (bytes : List UInt8) (now : Int) :
    (¬Framed sha256 bytes ∧
      ∃ error, error.ofReading ∧ decodeCacheRecord sha256 bytes now = .error error) ∨
    Framed sha256 bytes ∧ decodeCacheRecord sha256 bytes now =
      decodeCachePayload (bytes.drop cacheHeaderBytes) (readBE (slice bytes 8 16)) now := by
  unfold decodeCacheRecord
  by_cases hLarge : maxCacheBytes < bytes.length
  · rw [if_pos hLarge]
    exact .inl ⟨fun h => absurd h.length_le (Nat.not_le.mpr hLarge), _, rfl, rfl⟩
  rw [if_neg hLarge]
  by_cases hShort : bytes.length < cacheHeaderBytes
  · rw [if_pos hShort]
    exact .inl ⟨fun h => absurd h.length (by omega), _, rfl, rfl⟩
  rw [if_neg hShort]
  by_cases hMagic : slice bytes 0 4 ≠ cacheMagic
  · rw [if_pos hMagic]
    exact .inl ⟨fun h => hMagic h.magic, _, rfl, rfl⟩
  rw [if_neg hMagic]
  by_cases hFormat : readBE (slice bytes 4 6) ≠ cacheFormatVersion
  · rw [if_pos hFormat]
    exact .inl ⟨fun h => hFormat h.format, _, rfl, rfl⟩
  rw [if_neg hFormat]
  by_cases hFlags : readBE (slice bytes 6 8) ≠ cacheFlags
  · rw [if_pos hFlags]
    exact .inl ⟨fun h => hFlags h.flags, _, rfl, rfl⟩
  rw [if_neg hFlags]
  dsimp only
  by_cases hLength : cacheHeaderBytes + readBE (slice bytes 16 20) ≠ bytes.length
  · rw [if_pos hLength]
    refine .inl ⟨fun h => hLength h.length, _, ?_, rfl⟩
    split_ifs <;> rfl
  rw [if_neg hLength]
  by_cases hDigest : (sha256 (slice bytes 0 metadataBytes ++ bytes.drop cacheHeaderBytes)).bytes ≠
      slice bytes metadataBytes cacheHeaderBytes
  · rw [if_pos hDigest]
    exact .inl ⟨fun h => hDigest h.digest, _, rfl, rfl⟩
  rw [if_neg hDigest]
  exact .inr ⟨⟨Nat.not_lt.mp hLarge, not_not.mp hMagic, not_not.mp hFormat, not_not.mp hFlags,
    not_not.mp hLength, not_not.mp hDigest⟩, rfl⟩

section

variable (h : encodeCacheRecord sha256 snapshot time = .ok bytes)
include h

/-- A record is read back from the time it carries on. -/
theorem decodeCacheRecord_of_encode
    (hMillis : unixMillis time = .ok millis) (hNow : millis * nanosPerMilli ≤ now) :
    decodeCacheRecord sha256 bytes now = .ok ⟨snapshot, millis * nanosPerMilli⟩ := by
  obtain ⟨payload, millis', hPayload, hShort, hMillis', hLength, hBytes⟩ :=
    encodeCacheRecord_eq_ok h
  obtain rfl : millis' = millis := Except.ok.inj (hMillis'.symm.trans hMillis)
  obtain ⟨hFits, -⟩ := unixMillis_eq_ok hMillis
  obtain ⟨hMagic, hFormat, hFlags, hTime, hLen, hMetadata, hDigest, hRest⟩ :=
    slice_cacheRecord millis' payload.length payload
      (sha256 (cacheMetadata millis' payload.length ++ payload)).length_eq
  have hTotal : bytes.length = cacheHeaderBytes + payload.length := by
    rw [hBytes, length_append, length_append, length_cacheMetadata, FixedBytes.length_eq]
    exact (Nat.add_assoc _ _ _).symm
  rw [← hBytes] at hMagic hFormat hFlags hTime hLen hMetadata hDigest hRest
  have hFramed : Framed sha256 bytes := by
    refine ⟨hLength, hMagic, ?_, ?_, ?_, ?_⟩
    · rw [hFormat]
      exact readBE_be (by decide)
    · rw [hFlags]
      exact readBE_be (by decide)
    · rw [hLen, readBE_be (hShort.trans_eq (by norm_num)), hTotal]
    · rw [hMetadata, hRest, hDigest]
  have hMillis64 : readBE (be 8 millis') = millis' := readBE_be (hFits.trans_eq (by norm_num))
  rcases decodeCacheRecord_cases sha256 bytes now with ⟨hNot, -⟩ | ⟨-, hDecoded⟩
  · exact absurd hFramed hNot
  · rw [hDecoded, hRest, hTime, hMillis64, decodeCachePayload]
    simp only [decodeVersionedSnapshot_encode hPayload, hPayload, ne_eq, not_true_eq_false,
      if_false, if_neg (Int.not_lt.mpr hNow)]

/-- **A record is read back**, from the time of its writing on. -/
theorem decodeCacheRecord_encode (hNow : time ≤ now) :
    ∃ cached, decodeCacheRecord sha256 bytes now = .ok cached ∧ cached.snapshot = snapshot := by
  obtain ⟨_, _, -, -, hMillis, -⟩ := encodeCacheRecord_eq_ok h
  have hFloor := (unixMillis_eq_ok hMillis).2
  exact ⟨_, decodeCacheRecord_of_encode h hMillis (hFloor.trans hNow), rfl⟩

omit h in
/-- A payload that is accepted is the canonical one, and its time has come. -/
theorem decodeCachePayload_eq_ok {payload : List UInt8} {timestamp : Nat}
    (h : decodeCachePayload payload timestamp now = .ok cached) :
    decodeVersionedSnapshot payload = .ok cached.snapshot ∧
      encodeVersionedSnapshot cached.snapshot = .ok payload ∧
      cached.authenticatedAt = timestamp * nanosPerMilli ∧ cached.authenticatedAt ≤ now := by
  unfold decodeCachePayload at h
  split at h
  · cases h
  rename_i hSnapshot
  split at h
  · cases h
  rename_i hCanonical
  dsimp only at h
  split_ifs at h with hOther hFuture
  cases h
  rw [not_not.mp hOther] at hCanonical
  exact ⟨hSnapshot, hCanonical, rfl, Int.not_lt.mp hFuture⟩

omit h in
theorem decodeCacheRecord_eq_ok (h : decodeCacheRecord sha256 bytes now = .ok cached) :
    Framed sha256 bytes ∧ decodeCachePayload (bytes.drop cacheHeaderBytes)
      (readBE (slice bytes 8 16)) now = .ok cached := by
  rcases decodeCacheRecord_cases sha256 bytes now with ⟨-, _, -, hError⟩ | ⟨hFramed, hPayload⟩
  · cases h.symm.trans hError
  · exact ⟨hFramed, hPayload.symm.trans h⟩

/-- At whatever time a record is read, it gives no other snapshot. -/
theorem decodeCacheRecord_snapshot
    (hDecoded : decodeCacheRecord sha256 bytes now = .ok cached) : cached.snapshot = snapshot := by
  obtain ⟨_, hLater, rfl⟩ := decodeCacheRecord_encode h le_rfl
  have hNow := (decodeCachePayload_eq_ok (decodeCacheRecord_eq_ok hDecoded).2).1
  have hThen := (decodeCachePayload_eq_ok (decodeCacheRecord_eq_ok hLater).2).1
  exact Except.ok.inj (hNow.symm.trans hThen)

end

theorem slice_append {k : Nat} (hij : i ≤ j) (hjk : j ≤ k) :
    slice bytes i j ++ slice bytes j k = slice bytes i k := by
  have hDrop : bytes.drop j = (bytes.drop i).drop (j - i) := by
    rw [drop_drop, Nat.add_sub_cancel' hij]
  have hTake : k - i = (j - i) + (k - j) := by omega
  rw [slice, slice, slice, hDrop, hTake, take_add]

theorem slice_append_drop (hij : i ≤ j) : slice bytes i j ++ bytes.drop j = bytes.drop i := by
  have hDrop : bytes.drop j = (bytes.drop i).drop (j - i) := by
    rw [drop_drop, Nat.add_sub_cancel' hij]
  rw [slice, hDrop, take_append_drop]

/-- A field is the big-endian form of the number it holds. -/
theorem be_slice {n : Nat} (h : readBE (slice bytes i j) = n) (hj : j ≤ bytes.length) :
    be (j - i) n = slice bytes i j := by
  have hLength : (slice bytes i j).length = j - i := by
    rw [slice, length_take, length_drop]
    omega
  rw [← h, ← hLength, be_readBE]

/-- A framed record is its metadata, its digest and its payload. -/
theorem Framed.metadata (h : Framed sha256 bytes) : slice bytes 0 metadataBytes =
      cacheMetadata (readBE (slice bytes 8 16)) (bytes.drop cacheHeaderBytes).length := by
  have hHeader : metadataBytes + digestBytes ≤ bytes.length := by
    rw [← h.length]
    exact Nat.le_add_right _ _
  unfold metadataBytes digestBytes at hHeader
  have hPayload : readBE (slice bytes 16 20) = (bytes.drop cacheHeaderBytes).length := by
    rw [length_drop, ← h.length, Nat.add_sub_cancel_left]
  have hFormat : be 2 cacheFormatVersion = slice bytes 4 6 := be_slice h.format (by omega)
  have hFlags : be 2 cacheFlags = slice bytes 6 8 := be_slice h.flags (by omega)
  have hTime : be 8 (readBE (slice bytes 8 16)) = slice bytes 8 16 :=
    be_slice (i := 8) (j := 16) rfl (by omega)
  have hLength : be 4 (bytes.drop cacheHeaderBytes).length = slice bytes 16 20 :=
    be_slice hPayload (by omega)
  rw [cacheMetadata, ← h.magic, hFormat, hFlags, hTime, hLength,
    slice_append (by decide) (by decide), slice_append (by decide) (by decide),
    slice_append (by decide) (by decide), slice_append (by decide) (by decide)]
  rfl

theorem Framed.eq (h : Framed sha256 bytes) : bytes = slice bytes 0 metadataBytes ++
      ((sha256 (slice bytes 0 metadataBytes ++ bytes.drop cacheHeaderBytes)).bytes ++
        bytes.drop cacheHeaderBytes) := by
  rw [h.digest, slice_append_drop (by decide), slice_append_drop (by decide), drop_zero]

theorem unixMillis_mul {millis : Nat} (h : millis < 2 ^ 64) :
    unixMillis (millis * nanosPerMilli) = .ok millis := by
  have hNat : ((millis : Int) * nanosPerMilli).toNat = millis * nanosPerMilli := by
    rw [← Nat.cast_mul, Int.toNat_natCast]
  have hDiv : millis * nanosPerMilli / nanosPerMilli = millis :=
    Nat.mul_div_cancel _ (by decide)
  have hSign : ¬(millis : Int) * nanosPerMilli < 0 := by
    rw [← Nat.cast_mul]
    exact Int.not_lt.mpr (Int.natCast_nonneg _)
  simp only [unixMillis, if_neg hSign, hNat, hDiv, if_pos h]

/-- What is accepted was written by the encoder, at the time that it returns. -/
theorem encode_of_decodeCacheRecord (h : decodeCacheRecord sha256 bytes now = .ok cached) :
    encodeCacheRecord sha256 cached.snapshot cached.authenticatedAt = .ok bytes ∧
      (∃ millis : Nat, cached.authenticatedAt = millis * nanosPerMilli) ∧
      cached.authenticatedAt ≤ now := by
  obtain ⟨hFramed, hPayload⟩ := decodeCacheRecord_eq_ok h
  obtain ⟨-, hCanonical, hTime, hNow⟩ := decodeCachePayload_eq_ok hPayload
  have hFits : readBE (slice bytes 8 16) < 2 ^ 64 := by
    have hLength : (slice bytes 8 16).length ≤ 8 := by
      rw [slice]
      exact length_take_le _ _
    calc readBE (slice bytes 8 16) < 256 ^ (slice bytes 8 16).length := readBE_lt _
      _ ≤ 256 ^ 8 := Nat.pow_le_pow_right (by decide) hLength
      _ = 2 ^ 64 := by norm_num
  have hShort : ¬2 ^ 32 ≤ (bytes.drop cacheHeaderBytes).length := by
    have hLe := hFramed.length_le
    have hMax : maxCacheBytes < 2 ^ 32 := by decide
    rw [length_drop]
    omega
  refine ⟨?_, ⟨_, hTime⟩, hNow⟩
  unfold encodeCacheRecord
  rw [hCanonical, hTime, unixMillis_mul hFits]
  dsimp only
  rw [if_neg hShort, ok_bind, ← hFramed.metadata, ← hFramed.eq,
    if_neg (Nat.not_lt.mpr hFramed.length_le)]

/-- **The records that are read are the ones that are written.** At any time, and with any
digest, a byte string is accepted if and only if it is the record of some snapshot at some
time in whole milliseconds that is not later, and then it gives that snapshot and that time.
Every other byte string is rejected. -/
theorem cache_record_exact (sha256 : Hash) (bytes : List UInt8) (now : Int) :
    (∀ cached, decodeCacheRecord sha256 bytes now = .ok cached ↔
      encodeCacheRecord sha256 cached.snapshot cached.authenticatedAt = .ok bytes ∧
        (∃ millis : Int, cached.authenticatedAt = millis * nanosPerMilli) ∧
        cached.authenticatedAt ≤ now) ∧
    ((∃ (snapshot : VersionedAuthorizationSnapshot) (millis : Int),
        encodeCacheRecord sha256 snapshot (millis * nanosPerMilli) = .ok bytes ∧
          millis * nanosPerMilli ≤ now) ∨
      ∃ error, decodeCacheRecord sha256 bytes now = .error error) := by
  have hExact : ∀ cached, decodeCacheRecord sha256 bytes now = .ok cached ↔
      encodeCacheRecord sha256 cached.snapshot cached.authenticatedAt = .ok bytes ∧
        (∃ millis : Int, cached.authenticatedAt = millis * nanosPerMilli) ∧
        cached.authenticatedAt ≤ now := by
    rintro ⟨_, time⟩
    constructor
    · intro h
      obtain ⟨hEncoded, ⟨millis, hTime⟩, hNow⟩ := encode_of_decodeCacheRecord h
      exact ⟨hEncoded, ⟨millis, hTime⟩, hNow⟩
    · rintro ⟨hEncoded, ⟨millis, rfl⟩, hNow⟩
      obtain ⟨-, stamp, -, -, hStamp, -⟩ := encodeCacheRecord_eq_ok hEncoded
      -- a time before the epoch has no record, so the milliseconds are a natural number
      obtain rfl : (stamp : Int) = millis := by
        unfold unixMillis at hStamp
        dsimp only at hStamp
        split_ifs at hStamp with hNegative hFits
        cases hStamp
        unfold nanosPerMilli at *
        omega
      exact decodeCacheRecord_of_encode hEncoded hStamp hNow
  refine ⟨hExact, ?_⟩
  cases hDecoded : decodeCacheRecord sha256 bytes now with
  | error error => exact .inr ⟨error, rfl⟩
  | ok cached =>
    obtain ⟨hEncoded, ⟨millis, hTime⟩, hNow⟩ := (hExact cached).mp hDecoded
    exact .inl ⟨cached.snapshot, millis, hTime ▸ hEncoded, hTime ▸ hNow⟩

theorem decodeCacheRecord_error (h : decodeCacheRecord sha256 bytes now = .error error) :
    error.ofReading := by
  rcases decodeCacheRecord_cases sha256 bytes now with
    ⟨-, error', hError, hRefused⟩ | ⟨-, hPayload⟩
  · cases h.symm.trans hRefused
    exact hError
  · rw [hPayload, decodeCachePayload] at h
    split at h
    · cases h
      rfl
    · split at h
      · cases h
        rfl
      · dsimp only at h
        split_ifs at h <;> cases h <;> rfl

theorem encodeCacheRecord_error (h : encodeCacheRecord sha256 snapshot time = .error error) :
    error.ofReading := by
  unfold encodeCacheRecord at h
  split at h
  · cases h
    rfl
  · split at h
    · cases h
      rfl
    · cases hMillis : unixMillis time with
      | error =>
        rw [hMillis] at h
        cases h
        exact unixMillis_error hMillis
      | ok =>
        rw [hMillis, ok_bind] at h
        dsimp only at h
        split at h
        · cases h
          rfl
        · cases h

end

/-! ## Names -/

/-- "snapshot" -/
def snapshotText : Text := [115, 110, 97, 112, 115, 104, 111, 116]

/-- "snapshot-" -/
def generationStart : Text := snapshotText ++ [45]

/-- ".tpc" -/
def tpcSuffix : Text := [46, 116, 112, 99]

/-- ".tmp" -/
def tmpSuffix : Text := [46, 116, 109, 112]

def parseU64 (text : Text) : Option Nat := Decimal.parse (2 ^ 64) text

/-- `snapshot-{version:020}-{timestamp:020}-{nonce:020}` -/
def generationStem (version timestamp nonce : Nat) : Text :=
  generationStart ++ (Decimal.padded 20 version ++ 45 ::
    (Decimal.padded 20 timestamp ++ 45 :: Decimal.padded 20 nonce))

/-- `None` is `.ok none`: the file is not a generation. -/
def generationVersion (name : Text) : Except SnapshotCacheError (Option Nat) :=
  if !generationStart.isPrefixOf name || !tpcSuffix.isSuffixOf name then .ok none
  else
    let stem := name.take (name.length - tpcSuffix.length)
    match stem.splitOn 45 with
    | [] => .ok none
    | first :: parts =>
      if first ≠ snapshotText then .ok none
      else match parts with
        | [] => .error .filename
        | version :: parts =>
          match (parseU64 version).filter (0 < ·) with
          | none => .error .filename
          | some version =>
            match parts with
            | [timestamp, nonce] =>
              if (parseU64 timestamp).isSome && (parseU64 nonce).isSome then .ok (some version)
              else .error .filename
            | _ => .error .filename

theorem dash_not_mem_padded (width n : Nat) : (45 : UInt8) ∉ Decimal.padded width n := by
  intro hMem
  cases Decimal.isDigit_of_mem_padded hMem

theorem parseU64_padded {n : Nat} (h : n < 2 ^ 64) : parseU64 (Decimal.padded 20 n) = some n :=
  Decimal.parse_padded (by decide) (h.trans (by decide)) h

theorem splitOn_dashes {a b c : Text} (ha : 45 ∉ a) (hb : 45 ∉ b) (hc : 45 ∉ c) :
    (generationStart ++ (a ++ 45 :: (b ++ 45 :: c))).splitOn 45 = [snapshotText, a, b, c] := by
  have hJoined : generationStart ++ (a ++ 45 :: (b ++ 45 :: c)) =
      [45].intercalate [snapshotText, a, b, c] := by
    simp [generationStart, intercalate]
  rw [hJoined]
  refine splitOn_intercalate 45 ?_ (by simp)
  intro _ hPart
  simp only [mem_cons, not_mem_nil, or_false] at hPart
  rcases hPart with rfl | rfl | rfl | rfl
  · decide
  · exact ha
  · exact hb
  · exact hc

/-- **The name of a generation file gives its version.** -/
theorem generationVersion_tpc {version timestamp nonce : Nat} (hPos : 0 < version)
    (hVersion : version < 2 ^ 64) (hTimestamp : timestamp < 2 ^ 64) (hNonce : nonce < 2 ^ 64) :
    generationVersion (generationStem version timestamp nonce ++ tpcSuffix) =
      .ok (some version) := by
  have hStart : generationStart.isPrefixOf (generationStem version timestamp nonce ++ tpcSuffix) =
      true := by
    rw [List.isPrefixOf_iff_prefix, generationStem, append_assoc]
    exact prefix_append _ _
  have hEnd : tpcSuffix.isSuffixOf (generationStem version timestamp nonce ++ tpcSuffix) = true :=
    isSuffixOf_iff_suffix.mpr (suffix_append _ _)
  have hStem : (generationStem version timestamp nonce ++ tpcSuffix).take
      ((generationStem version timestamp nonce ++ tpcSuffix).length - tpcSuffix.length) =
        generationStem version timestamp nonce := by
    rw [length_append, Nat.add_sub_cancel, take_left]
  have hFilter : (some version).filter (fun value => decide (0 < value)) = some version := by
    rw [Option.filter_some, decide_eq_true hPos, if_pos rfl]
  have hSplit := splitOn_dashes (dash_not_mem_padded 20 version)
    (dash_not_mem_padded 20 timestamp) (dash_not_mem_padded 20 nonce)
  rw [← generationStem] at hSplit
  simp only [generationVersion, hStart, hEnd, hStem, hSplit,
    parseU64_padded hVersion, parseU64_padded hTimestamp, parseU64_padded hNonce, hFilter]
  rfl

theorem not_tmp_of_tpc (stem : Text) : tmpSuffix.isSuffixOf (stem ++ tpcSuffix) = false := by
  rw [Bool.eq_false_iff, ne_eq, isSuffixOf_iff_suffix]
  intro hSuffix
  -- the two endings have the same length, so they would be the same
  have hSame := suffix_of_suffix_length_le hSuffix (suffix_append stem tpcSuffix) le_rfl
  exact absurd (hSame.eq_of_length rfl) (by decide)

end TunnelProxy.Control
