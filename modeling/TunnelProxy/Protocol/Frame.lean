import TunnelProxy.Lib.BigEndian

/-!
# Tunnel Protocol v2 — frame types and frame construction

The wire constants, the frame types with their stream scope, the reset codes,
and `Frame`. A `Frame` carries the three facts its constructor checks (flags
are zero, the payload fits, the stream id matches the scope of the type), so a
frame that the encoder would refuse cannot be built.

* `Frame.new` — the checked constructor, in the source's order of checks.
* `Frame.new_eq_ok` — it accepts exactly the fields that satisfy the three
  facts and keeps them unchanged.
-/

namespace TunnelProxy.Protocol

/-! ## Wire constants -/

/-- The ASCII string `TPX1`. -/
def magic : List UInt8 := [0x54, 0x50, 0x58, 0x31]

def headerSize : Nat := 16

def version : UInt8 := 2

/-- 64 KiB. -/
def maxFramePayload : Nat := 64 * 1024

/-! ## Frame types -/

inductive Scope where
  | control
  | stream
deriving DecidableEq, Repr

inductive FrameType where
  | hello
  | register
  | registered
  | openStream
  | data
  | endStream
  | resetStream
  | ping
  | pong
  | error
deriving DecidableEq, Repr

namespace FrameType

def scope : FrameType → Scope
  | hello | register | registered | ping | pong | error => .control
  | openStream | data | endStream | resetStream => .stream

def asU8 : FrameType → UInt8
  | hello => 0x01
  | register => 0x02
  | registered => 0x03
  | openStream => 0x10
  | data => 0x11
  | endStream => 0x12
  | resetStream => 0x13
  | ping => 0x20
  | pong => 0x21
  | error => 0xFF

def fromRaw (byte : UInt8) : Option FrameType :=
  if byte = 0x01 then some hello
  else if byte = 0x02 then some register
  else if byte = 0x03 then some registered
  else if byte = 0x10 then some openStream
  else if byte = 0x11 then some data
  else if byte = 0x12 then some endStream
  else if byte = 0x13 then some resetStream
  else if byte = 0x20 then some ping
  else if byte = 0x21 then some pong
  else if byte = 0xFF then some error
  else none

theorem fromRaw_asU8 (t : FrameType) : fromRaw t.asU8 = some t := by
  cases t <;> rfl

theorem eq_or_of_ite_eq_some {byte raw : UInt8} {t t' : FrameType} {rest : Option FrameType}
    (h : (if byte = raw then some t else rest) = some t') :
    byte = raw ∧ t = t' ∨ rest = some t' := by
  by_cases hByte : byte = raw
  · rw [if_pos hByte, Option.some.injEq] at h
    exact .inl ⟨hByte, h⟩
  · rw [if_neg hByte] at h
    exact .inr h

theorem asU8_of_fromRaw {byte : UInt8} {t : FrameType} (h : fromRaw byte = some t) :
    t.asU8 = byte := by
  unfold fromRaw at h
  -- Each of the ten tests names the byte of the type it returns.
  iterate 10
    obtain ⟨hByte, rfl⟩ | h := eq_or_of_ite_eq_some h
    exact hByte.symm
  cases h

end FrameType

/-! ## Stream identifiers -/

/-- `0` stands for the control scope, every other value names a stream. -/
abbrev StreamId := UInt32

def StreamId.control : StreamId := 0

/-- `none` for `0`: a stream never has the control id. -/
def StreamId.new (id : UInt32) : Option StreamId :=
  if id = 0 then none else some id

/-- A control-scoped type needs stream id `0`, a stream-scoped one any other. -/
def ScopeOk (frameType : FrameType) (streamId : StreamId) : Prop :=
  match frameType.scope with
  | .control => streamId = StreamId.control
  | .stream => streamId ≠ StreamId.control

instance (frameType : FrameType) (streamId : StreamId) :
    Decidable (ScopeOk frameType streamId) := by
  unfold ScopeOk
  split <;> infer_instance

/-! ## Errors -/

inductive ProtocolError where
  | io
  | invalidMagic (got : List UInt8)
  | unsupportedVersion (got : UInt8)
  | unknownFrameType (got : UInt8)
  | unsupportedFlags (flags : UInt16)
  | invalidStreamScope (frameType : FrameType) (required : String) (got : StreamId)
  | frameTooLarge (len : Nat)
  | truncatedHeader (got : Nat)
  | truncatedPayload (got expected : Nat)
  | encodeFrameTooLarge (len : Nat)
deriving DecidableEq, Repr

/-- The scope error names the stream id the frame type requires. -/
def scopeError (frameType : FrameType) (streamId : StreamId) : ProtocolError :=
  .invalidStreamScope frameType
    (match frameType.scope with
      | .control => "0 (control)"
      | .stream => "> 0 (stream)")
    streamId

/-! ## Frames -/

structure Frame where
  frameType : FrameType
  flags : UInt16
  streamId : StreamId
  payload : List UInt8
  flags_eq : flags = 0
  payload_le : payload.length ≤ maxFramePayload
  scope_ok : ScopeOk frameType streamId
deriving DecidableEq

namespace Frame

variable {f : Frame} {frameType : FrameType} {payload : List UInt8} {streamId : StreamId}

/-- Two frames with the same type, stream and payload are equal: the flags are
always zero. -/
theorem ext_fields {g : Frame} (hType : f.frameType = g.frameType) (hId : f.streamId = g.streamId)
    (hPayload : f.payload = g.payload) : f = g := by
  cases f; cases g
  simp_all

/-- Checks flags, payload size and stream scope, in this order. A payload length
above `u32::MAX` is reported as `u32::MAX`. -/
def new (frameType : FrameType) (flags : UInt16) (streamId : StreamId)
    (payload : List UInt8) : Except ProtocolError Frame :=
  if hFlags : flags = 0 then
    if hLen : payload.length ≤ maxFramePayload then
      if hScope : ScopeOk frameType streamId then
        .ok ⟨frameType, flags, streamId, payload, hFlags, hLen, hScope⟩
      else .error (scopeError frameType streamId)
    else .error (.encodeFrameTooLarge (min payload.length (2 ^ 32 - 1)))
  else .error (.unsupportedFlags flags)

def stream (streamId : StreamId) (frameType : FrameType) (payload : List UInt8) :
    Except ProtocolError Frame :=
  new frameType 0 streamId payload

def control (frameType : FrameType) (payload : List UInt8) : Except ProtocolError Frame :=
  new frameType 0 StreamId.control payload

/-- The constructor accepts exactly the well-formed fields and keeps them. -/
theorem new_eq_ok {flags : UInt16} : new frameType flags streamId payload = .ok f ↔
      f.frameType = frameType ∧ f.flags = flags ∧ f.streamId = streamId ∧ f.payload = payload := by
  constructor
  · intro h
    unfold new at h
    split_ifs at h
    cases h
    exact ⟨rfl, rfl, rfl, rfl⟩
  · rintro ⟨rfl, rfl, rfl, rfl⟩
    rw [new, dif_pos f.flags_eq, dif_pos f.payload_le, dif_pos f.scope_ok]

theorem zero_flags : (0 : UInt16) = 0 := rfl

theorem nil_fits : ([] : List UInt8).length ≤ maxFramePayload := by decide

theorem ping_scope : ScopeOk .ping 0 := by decide

/-- A frame on a stream whose id is known to be non-zero. -/
def onStream (streamId : StreamId) (hId : streamId ≠ StreamId.control) (frameType : FrameType)
    (hScope : frameType.scope = .stream) (payload : List UInt8)
    (hLen : payload.length ≤ maxFramePayload) : Frame where
  frameType := frameType
  flags := 0
  streamId := streamId
  payload := payload
  flags_eq := zero_flags
  payload_le := hLen
  scope_ok := by simpa [ScopeOk, hScope] using hId

end Frame

/-! ## Reset codes -/

inductive StreamResetCode where
  | localConnectFailed
  | localConnectTimeout
  | ioFailure
  | protocolViolation
  | streamBusy
  | openTimeout
  | idleTimeout
  | capacityExceeded
  | unknownStream
  | flowControlExceeded
  | sessionClosing
deriving DecidableEq, Repr

namespace StreamResetCode

def asU16 : StreamResetCode → Nat
  | localConnectFailed => 1
  | localConnectTimeout => 2
  | ioFailure => 3
  | protocolViolation => 4
  | streamBusy => 5
  | openTimeout => 6
  | idleTimeout => 7
  | capacityExceeded => 8
  | unknownStream => 9
  | flowControlExceeded => 10
  | sessionClosing => 11

def toBeBytes (code : StreamResetCode) : List UInt8 := BigEndian.be 2 code.asU16

def ofU16 : Nat → Option StreamResetCode
  | 1 => some localConnectFailed
  | 2 => some localConnectTimeout
  | 3 => some ioFailure
  | 4 => some protocolViolation
  | 5 => some streamBusy
  | 6 => some openTimeout
  | 7 => some idleTimeout
  | 8 => some capacityExceeded
  | 9 => some unknownStream
  | 10 => some flowControlExceeded
  | 11 => some sessionClosing
  | _ => none

/-- `none` for payloads that are not two bytes, as `decode_reset` has it. -/
def fromBeBytes (bytes : List UInt8) : Option StreamResetCode :=
  if bytes.length = 2 then ofU16 (BigEndian.readBE bytes) else none

theorem length_toBeBytes (code : StreamResetCode) : code.toBeBytes.length = 2 :=
  BigEndian.length_be 2 _

end StreamResetCode

end TunnelProxy.Protocol
