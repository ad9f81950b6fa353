import TunnelProxy.Protocol.Frame

/-!
# Frame encoder and incremental decoder

`FrameEncoder.encode` writes a 16-byte header and the payload. `FrameDecoder`
keeps its progress between reads: `feed` is what one `read` that returned
`chunk` does to it, so a `decode` call that is dropped while waiting leaves the
decoder where the next call resumes.

* `FrameEncoder.encode_eq_ok` — a `Frame` always encodes.
* `FrameDecoder.feed_ok` — a decoded frame's encoding is exactly the bytes the
  decoder took in for it.
* `FrameDecoder.feed_none` — bytes of an unfinished frame stay buffered.
* `encodeAll_prefix` — frames are recovered from the concatenation of their
  encodings: no encoding is cut by another one.
-/

namespace TunnelProxy.Protocol

open BigEndian List Protocol.Frame

/-! ## Encoder -/

/-- Magic, version, type, flags, stream id and payload length; integers are
big-endian. -/
def encodeHeader (frameType : FrameType) (flags : UInt16) (streamId : StreamId)
    (payloadLen : Nat) : List UInt8 :=
  magic ++ version :: frameType.asU8 ::
    (be 2 flags.toNat ++ be 4 streamId.toNat ++ be 4 payloadLen)

@[simp] theorem length_encodeHeader (frameType : FrameType) (flags : UInt16)
    (streamId : StreamId) (payloadLen : Nat) :
    (encodeHeader frameType flags streamId payloadLen).length = headerSize := by
  simp [encodeHeader, magic, headerSize]

/-- The bytes of a frame on the wire. -/
def Frame.wire (f : Frame) : List UInt8 :=
  encodeHeader f.frameType f.flags f.streamId f.payload.length ++ f.payload

namespace FrameEncoder

/-- Payload size, flags, stream scope: the encoder checks in this order. -/
def validateFrame (f : Frame) : Except ProtocolError Unit :=
  if maxFramePayload < f.payload.length then
    .error (.encodeFrameTooLarge (min f.payload.length (2 ^ 32 - 1)))
  else if f.flags ≠ 0 then .error (.unsupportedFlags f.flags)
  else if ¬ ScopeOk f.frameType f.streamId then .error (scopeError f.frameType f.streamId)
  else .ok ()

def encode (f : Frame) : Except ProtocolError (List UInt8) := do
  validateFrame f
  return f.wire

/-- Every `Frame` passes the encoder's checks. -/
@[simp] theorem encode_eq_ok (f : Frame) : encode f = .ok f.wire := by
  have hLen : ¬ maxFramePayload < f.payload.length := by
    have := f.payload_le
    omega
  have hValid : validateFrame f = .ok () := by
    rw [validateFrame, if_neg hLen, if_neg (not_not.mpr f.flags_eq),
      if_neg (not_not.mpr f.scope_ok)]
  rw [encode, hValid]
  rfl

end FrameEncoder

/-! ## Decoder -/

/-- A frame whose header is complete. `payload` holds the bytes read so far and
`missing` counts the ones still to come. -/
structure PendingFrame where
  frameType : FrameType
  flags : UInt16
  streamId : StreamId
  payload : List UInt8
  missing : Nat
deriving DecidableEq

/-- Magic, version, type, flags and announced length are checked in this order.
The header buffer has 16 bytes; the last case is never taken. -/
def parseHeader : List UInt8 → Except ProtocolError PendingFrame
  | [m0, m1, m2, m3, v, t, f0, f1, s0, s1, s2, s3, l0, l1, l2, l3] =>
    if [m0, m1, m2, m3] ≠ magic then .error (.invalidMagic [m0, m1, m2, m3])
    else if v ≠ version then .error (.unsupportedVersion v)
    else match FrameType.fromRaw t with
      | none => .error (.unknownFrameType t)
      | some frameType =>
        let flags := UInt16.ofNat (readBE [f0, f1])
        let payloadLen := readBE [l0, l1, l2, l3]
        if flags ≠ 0 then .error (.unsupportedFlags flags)
        else if maxFramePayload < payloadLen then .error (.frameTooLarge payloadLen)
        else .ok ⟨frameType, flags, UInt32.ofNat (readBE [s0, s1, s2, s3]), [], payloadLen⟩
  | _ => .error .io

structure FrameDecoder where
  header : List UInt8
  pending : Option PendingFrame
deriving DecidableEq

namespace FrameDecoder

def new : FrameDecoder := ⟨[], none⟩

/-- How many bytes the next `read` asks for. -/
def wanted (d : FrameDecoder) : Nat :=
  match d.pending with
  | none => headerSize - d.header.length
  | some p => p.missing

/-- Once the payload is complete the frame is built, with its own checks. -/
def complete (p : PendingFrame) : FrameDecoder × Option (Except ProtocolError Frame) :=
  if 0 < p.missing then (⟨[], some p⟩, none)
  else (new, some (Frame.new p.frameType p.flags p.streamId p.payload))

/-- One `read` that returned `chunk`; the result is `none` while the frame is
incomplete. -/
def feed (d : FrameDecoder) (chunk : List UInt8) :
    FrameDecoder × Option (Except ProtocolError Frame) :=
  match d.pending with
  | none =>
    if (d.header ++ chunk).length < headerSize then (⟨d.header ++ chunk, none⟩, none)
    else match parseHeader (d.header ++ chunk) with
      | .error e => (new, some (.error e))
      | .ok p => complete p
  | some p =>
    complete { p with payload := p.payload ++ chunk, missing := p.missing - chunk.length }

/-- One `read` that returned zero bytes. -/
def feedEof (d : FrameDecoder) : Except ProtocolError Unit :=
  match d.pending with
  | none =>
    if d.header.length = 0 then .ok () else .error (.truncatedHeader d.header.length)
  | some p => .error (.truncatedPayload p.payload.length (p.payload.length + p.missing))

end FrameDecoder

/-! ## The header survives the wire -/

theorem parseHeader_fields {frameType : FrameType} {flagBytes idBytes lenBytes : List UInt8}
    (hFlags : flagBytes.length = 2) (hId : idBytes.length = 4) (hLen : lenBytes.length = 4)
    (hZero : readBE flagBytes = 0) (hMax : readBE lenBytes ≤ maxFramePayload) :
    parseHeader
        (magic ++ version :: frameType.asU8 :: (flagBytes ++ idBytes ++ lenBytes)) =
      .ok ⟨frameType, 0, UInt32.ofNat (readBE idBytes), [], readBE lenBytes⟩ := by
  match flagBytes, idBytes, lenBytes, hFlags, hId, hLen with
  | [f0, f1], [s0, s1, s2, s3], [l0, l1, l2, l3], _, _, _ =>
    simp [parseHeader, magic, FrameType.fromRaw_asU8, hZero, Nat.not_lt.mpr hMax]

theorem parseHeader_encodeHeader (frameType : FrameType) (streamId : StreamId) {len : Nat}
    (hLen : len ≤ maxFramePayload) :
    parseHeader (encodeHeader frameType 0 streamId len) =
      .ok ⟨frameType, 0, streamId, [], len⟩ := by
  have hId : readBE (be 4 streamId.toNat) = streamId.toNat :=
    readBE_be (UInt32.toNat_lt streamId)
  have hRead : readBE (be 4 len) = len := by
    apply readBE_be
    simp only [maxFramePayload] at hLen
    omega
  have hFlags : readBE (be 2 (UInt16.toNat 0)) = 0 := readBE_be (by decide)
  rw [encodeHeader, parseHeader_fields (length_be 2 _) (length_be 4 _) (length_be 4 _) hFlags
    (hRead.symm ▸ hLen), hId, hRead, UInt32.ofNat_toNat]

/-- A header that parses is the encoding of what it parsed to. -/
theorem encodeHeader_of_parseHeader {header : List UInt8} {p : PendingFrame}
    (h : parseHeader header = .ok p) :
    encodeHeader p.frameType p.flags p.streamId (p.payload.length + p.missing) = header ∧
      p.payload = [] := by
  unfold parseHeader at h
  split at h
  · rename_i m0 m1 m2 m3 v t f0 f1 s0 s1 s2 s3 l0 l1 l2 l3
    split_ifs at h with hMagic hVersion
    split at h
    · cases h
    · rename_i hType
      dsimp only at h
      split_ifs at h with hFlags hTooLarge
      cases h
      have hFlagBytes : be 2 (readBE [f0, f1]) = [f0, f1] := be_readBE [f0, f1]
      have hIdBytes : be 4 (readBE [s0, s1, s2, s3]) = [s0, s1, s2, s3] :=
        be_readBE [s0, s1, s2, s3]
      have hLenBytes : be 4 (readBE [l0, l1, l2, l3]) = [l0, l1, l2, l3] :=
        be_readBE [l0, l1, l2, l3]
      have hFlagNat : (UInt16.ofNat (readBE [f0, f1])).toNat = readBE [f0, f1] :=
        UInt16.toNat_ofNat_of_lt (by simpa using readBE_lt [f0, f1])
      have hIdNat : (UInt32.ofNat (readBE [s0, s1, s2, s3])).toNat = readBE [s0, s1, s2, s3] :=
        UInt32.toNat_ofNat_of_lt (by simpa using readBE_lt [s0, s1, s2, s3])
      have hMagicEq : [m0, m1, m2, m3] = magic := not_not.mp hMagic
      have hVersionEq : v = version := not_not.mp hVersion
      refine ⟨?_, rfl⟩
      simp only [encodeHeader, length_nil, Nat.zero_add, hFlagNat, hIdNat, hFlagBytes,
        hIdBytes, hLenBytes, FrameType.asU8_of_fromRaw hType, ← hMagicEq, ← hVersionEq]
      rfl
  · cases h

/-! ## What the decoder has taken in -/

namespace PendingFrame

/-- The header and the payload bytes read so far. -/
def bytes (p : PendingFrame) : List UInt8 :=
  encodeHeader p.frameType p.flags p.streamId (p.payload.length + p.missing) ++ p.payload

theorem bytes_append {p : PendingFrame} {chunk : List UInt8} (h : chunk.length ≤ p.missing) :
    bytes { p with payload := p.payload ++ chunk, missing := p.missing - chunk.length } =
      p.bytes ++ chunk := by
  have hLen : (p.payload ++ chunk).length + (p.missing - chunk.length) =
      p.payload.length + p.missing := by
    rw [length_append]
    omega
  simp only [bytes, hLen, append_assoc]

end PendingFrame

namespace FrameDecoder

/-- The bytes of the unfinished frame that the decoder holds. -/
def buffered (d : FrameDecoder) : List UInt8 :=
  match d.pending with
  | none => d.header
  | some p => p.bytes

@[simp] theorem buffered_new : new.buffered = [] := rfl

variable {d d' : FrameDecoder} {p : PendingFrame} {chunk : List UInt8}

theorem complete_none (h : complete p = (d, none)) : d.buffered = p.bytes := by
  unfold complete at h
  split_ifs at h
  · cases h
    rfl
  · simp at h

theorem complete_ok {f : Frame} (h : complete p = (d, some (.ok f))) :
    d = new ∧ f.wire = p.bytes := by
  unfold complete at h
  split_ifs at h with hMissing
  · simp at h
  · simp only [Prod.mk.injEq, Option.some.injEq] at h
    obtain ⟨rfl, hNew⟩ := h
    obtain ⟨hType, hFlags, hId, hPayload⟩ := new_eq_ok.mp hNew
    have hZero : p.missing = 0 := Nat.eq_zero_of_not_pos hMissing
    refine ⟨rfl, ?_⟩
    rw [Frame.wire, PendingFrame.bytes, hType, hFlags, hId, hPayload, hZero, Nat.add_zero]

theorem bytes_of_parseHeader {header : List UInt8} (h : parseHeader header = .ok p) :
    p.bytes = header := by
  obtain ⟨hHeader, hPayload⟩ := encodeHeader_of_parseHeader h
  rw [PendingFrame.bytes, hHeader, hPayload, append_nil]

/-- While a frame is incomplete, every byte read for it stays buffered. -/
theorem feed_none (hLen : chunk.length ≤ d.wanted) (h : d.feed chunk = (d', none)) :
    d'.buffered = d.buffered ++ chunk := by
  obtain ⟨header, pending⟩ := d
  cases pending with
  | none =>
    simp only [feed] at h
    split_ifs at h with hShort
    · cases h
      rfl
    · split at h
      · simp at h
      · rename_i hParse
        rw [complete_none h, bytes_of_parseHeader hParse]
        rfl
  | some =>
    rw [complete_none h, PendingFrame.bytes_append hLen]
    rfl

/-- **Decoding is exact.** The frame that a read completes is the one whose
encoding is the buffered bytes followed by that read. -/
theorem feed_ok {f : Frame} (hLen : chunk.length ≤ d.wanted)
    (h : d.feed chunk = (d', some (.ok f))) :
    d' = new ∧ f.wire = d.buffered ++ chunk := by
  obtain ⟨header, pending⟩ := d
  cases pending with
  | none =>
    simp only [feed] at h
    split_ifs at h with hShort
    · simp at h
    · split at h
      · simp at h
      · rename_i hParse
        obtain ⟨rfl, hWire⟩ := complete_ok h
        exact ⟨rfl, by rw [hWire, bytes_of_parseHeader hParse]; rfl⟩
  | some =>
    obtain ⟨rfl, hWire⟩ := complete_ok h
    exact ⟨rfl, by rw [hWire, PendingFrame.bytes_append hLen]; rfl⟩

end FrameDecoder

/-! ## Concatenated encodings -/

def encodeAll (frames : List Frame) : List UInt8 :=
  frames.flatMap Frame.wire

@[simp] theorem encodeAll_nil : encodeAll [] = [] := rfl

@[simp] theorem encodeAll_append (xs ys : List Frame) :
    encodeAll (xs ++ ys) = encodeAll xs ++ encodeAll ys := by
  simp [encodeAll]

@[simp] theorem encodeAll_singleton (f : Frame) : encodeAll [f] = f.wire := by
  simp [encodeAll]

theorem Frame.wire_ne_nil (f : Frame) : f.wire ≠ [] := by
  simp [Frame.wire, encodeHeader, magic]

theorem Frame.parseHeader_wire (f : Frame) (rest : List UInt8) :
    parseHeader ((f.wire ++ rest).take headerSize) =
      .ok ⟨f.frameType, 0, f.streamId, [], f.payload.length⟩ := by
  rw [Frame.wire, append_assoc, take_append_of_le_length (length_encodeHeader _ _ _ _).ge,
    take_of_length_le (length_encodeHeader _ _ _ _).le, f.flags_eq,
    parseHeader_encodeHeader _ _ f.payload_le]

/-- The header decides type, stream and payload length, so two frames whose
encodings start the same byte string are the same frame. -/
theorem wire_append_inj {f g : Frame} {xs ys : List UInt8}
    (h : f.wire ++ xs = g.wire ++ ys) : f = g ∧ xs = ys := by
  have hParse := f.parseHeader_wire xs
  rw [h, g.parseHeader_wire ys, Except.ok.injEq, PendingFrame.mk.injEq] at hParse
  obtain ⟨hType, -, hId, -, hLen⟩ := hParse
  have hWireLen : f.wire.length = g.wire.length := by
    simp only [Frame.wire, length_append, length_encodeHeader, hLen]
  obtain ⟨hWire, hRest⟩ := append_inj h hWireLen
  have hPayload : f.payload = g.payload :=
    (append_inj hWire (by simp only [length_encodeHeader])).2
  exact ⟨ext_fields hType.symm hId.symm hPayload, hRest⟩

/-- **Frames are recovered from their bytes.** If the bytes of `ys` start the
bytes of `xs`, then `ys` starts `xs`. -/
theorem encodeAll_prefix {xs ys : List Frame} (h : encodeAll ys <+: encodeAll xs) : ys <+: xs := by
  induction ys generalizing xs with
  | nil => exact nil_prefix
  | cons y _ ih =>
    obtain ⟨rest, hRest⟩ := h
    rw [encodeAll, flatMap_cons, append_assoc] at hRest
    cases xs with
    | nil =>
      have hNil : y.wire = [] := (append_eq_nil_iff.mp hRest).1
      exact absurd hNil y.wire_ne_nil
    | cons =>
      rw [encodeAll, flatMap_cons] at hRest
      obtain ⟨rfl, hTail⟩ := wire_append_inj hRest
      exact cons_prefix_cons.mpr ⟨rfl, ih ⟨rest, hTail⟩⟩

end TunnelProxy.Protocol
