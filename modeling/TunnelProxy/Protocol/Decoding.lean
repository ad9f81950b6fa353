import TunnelProxy.Lib.Transition
import TunnelProxy.Protocol.Codec

/-!
# `decode` over every cut of its input

The bytes of a transport arrive in pieces that have nothing to do with frames, and the
session loops drop a `decode` call whenever another branch of their `select!` is ready.
`Decoding` is a caller that uses one decoder over one transport: it calls `decode`, the reads
of the call return what the transport has, the call may be dropped while it waits, and the
next call starts again from the decoder alone.

`decodeBytes` says what a call means without any reads: the frame at the head of a byte
string, or why there is none.

* `FrameDecoder.feed_spec`, `FrameDecoder.feedEof_spec` — whatever the cut, a call returns
  what `decodeBytes` says of the bytes that were left when it began.
* `decodeBytes_eq_frame` — a frame is found exactly at the head of its encoding.
* `Decoding.decode_survives_every_cut` — frames come out of the concatenation of their
  encodings whatever the cuts and the dropped calls.
* `Decoding.decode_accepts_encodings` — the byte strings that `decode` accepts.
-/

namespace TunnelProxy.Protocol

open BigEndian Transition FrameDecoder List FrameEncoder

/-! ## One call, without reads -/

theorem map_eq_ok {ε α β : Type*} {x : Except ε α} {g : α → β} {b : β} :
    x.map g = .ok b ↔ ∃ a, x = .ok a ∧ g a = b := by
  cases x <;> simp [Except.map]

/-- The payload a header announces, at the head of `rest`. -/
def decodePayload (p : PendingFrame) (rest : List UInt8) :
    Except ProtocolError (Option (Frame × List UInt8)) :=
  if rest.length < p.missing then .error (.truncatedPayload rest.length p.missing)
  else
    (Frame.new p.frameType p.flags p.streamId (rest.take p.missing)).map
      fun f => some (f, rest.drop p.missing)

/-- The frame at the head of `input` and the bytes after it; `none` for no bytes at all. -/
def decodeBytes (input : List UInt8) : Except ProtocolError (Option (Frame × List UInt8)) :=
  if input.length = 0 then .ok none
  else if input.length < headerSize then .error (.truncatedHeader input.length)
  else match parseHeader (input.take headerSize) with
    | .error e => .error e
    | .ok p => decodePayload p (input.drop headerSize)

variable {header chunk : List UInt8}

theorem decodeBytes_of_header (hLen : header.length = headerSize)
    (rest : List UInt8) :
    decodeBytes (header ++ rest) =
      match parseHeader header with
      | .error e => .error e
      | .ok p => decodePayload p rest := by
  have hPos : 0 < headerSize := by decide
  have hTake : (header ++ rest).take headerSize = header := by
    rw [← hLen]
    exact take_left
  have hDrop : (header ++ rest).drop headerSize = rest := by
    rw [← hLen]
    exact drop_left
  rw [decodeBytes, if_neg (by rw [length_append]; omega),
    if_neg (by rw [length_append]; omega), hTake, hDrop]

/-- A header followed by any bytes: the payload is the next ones. -/
theorem decodeBytes_encodeHeader (frameType : FrameType) (streamId : StreamId)
    {len : Nat} (hLen : len ≤ maxFramePayload) (rest : List UInt8) :
    decodeBytes (encodeHeader frameType 0 streamId len ++ rest) =
      decodePayload ⟨frameType, 0, streamId, [], len⟩ rest := by
  rw [decodeBytes_of_header (length_encodeHeader _ _ _ _), parseHeader_encodeHeader _ _ hLen]

/-- All of the payload is there. -/
theorem decodePayload_append (frameType : FrameType) (streamId : StreamId)
    (payload rest : List UInt8) :
    decodePayload ⟨frameType, 0, streamId, [], payload.length⟩ (payload ++ rest) =
      (Frame.new frameType 0 streamId payload).map fun f => some (f, rest) := by
  have hThere : ¬ (payload ++ rest).length < payload.length := by
    rw [length_append]
    omega
  simp only [decodePayload, if_neg hThere, take_left, drop_left]

theorem decodeBytes_wire (f : Frame) (rest : List UInt8) :
    decodeBytes (f.wire ++ rest) = .ok (some (f, rest)) := by
  have hNew : Frame.new f.frameType 0 f.streamId f.payload = .ok f :=
    Frame.new_eq_ok.mpr ⟨rfl, f.flags_eq, rfl, rfl⟩
  rw [Frame.wire, f.flags_eq, append_assoc, decodeBytes_encodeHeader _ _ f.payload_le,
    decodePayload_append, hNew]
  rfl

variable {rest : List UInt8}

theorem wire_of_decodePayload {p : PendingFrame} {after : List UInt8} {f : Frame}
    (h : decodePayload p rest = .ok (some (f, after))) :
    encodeHeader p.frameType p.flags p.streamId p.missing ++ rest = f.wire ++ after := by
  unfold decodePayload at h
  split_ifs at h with hMissing
  obtain ⟨g, hNew, hFound⟩ := map_eq_ok.mp h
  simp only [Option.some.injEq, Prod.mk.injEq] at hFound
  obtain ⟨rfl, rfl⟩ := hFound
  obtain ⟨hType, hFlags, hId, hPayload⟩ := Frame.new_eq_ok.mp hNew
  have hLen : g.payload.length = p.missing := by
    rw [hPayload, length_take]
    omega
  rw [Frame.wire, hType, hFlags, hId, hLen, hPayload, append_assoc, take_append_drop]

variable {input : List UInt8}

/-- **A frame is found exactly at the head of its encoding.** -/
theorem decodeBytes_eq_frame {f : Frame} :
    decodeBytes input = .ok (some (f, rest)) ↔ input = f.wire ++ rest := by
  constructor
  · intro h
    unfold decodeBytes at h
    split at h
    · cases h
    split at h
    · cases h
    split at h
    · cases h
    · rename_i hParse
      obtain ⟨hHeader, hNil⟩ := encodeHeader_of_parseHeader hParse
      rw [hNil, length_nil, Nat.zero_add] at hHeader
      rw [← wire_of_decodePayload h, hHeader, take_append_drop]
  · rintro rfl
    exact decodeBytes_wire f rest

/-- A clean end is the end of no bytes. -/
theorem decodeBytes_eq_none : decodeBytes input = .ok none ↔ input = [] := by
  constructor
  · intro h
    unfold decodeBytes at h
    split at h
    · exact length_eq_zero_iff.mp ‹_›
    split at h
    · cases h
    split at h
    · cases h
    · unfold decodePayload at h
      split_ifs at h
      obtain ⟨_, -, hFound⟩ := map_eq_ok.mp h
      cases hFound
  · rintro rfl
    rfl

/-- Bytes that are there and start no encoding are an error. -/
theorem decodeBytes_error (hInput : input ≠ []) (hNone : ∀ f : Frame, ¬ f.wire <+: input) :
    ∃ e, decodeBytes input = .error e := by
  cases hBytes : decodeBytes input with
  | error e => exact ⟨e, rfl⟩
  | ok found =>
    cases found with
    | none => exact absurd (decodeBytes_eq_none.mp hBytes) hInput
    | some found =>
      exact absurd ⟨found.2, (decodeBytes_eq_frame.mp hBytes).symm⟩ (hNone found.1)

/-! ## The decoder between two reads -/

namespace FrameDecoder

/-- What the two read loops keep: there is always something left to read, and the payload
buffer is never larger than the limit. -/
structure WellFormed (d : FrameDecoder) : Prop where
  header : d.pending = none → d.header.length < headerSize
  pending : ∀ p, d.pending = some p →
    0 < p.missing ∧ p.flags = 0 ∧ p.payload.length + p.missing ≤ maxFramePayload

theorem wellFormed_new : new.WellFormed where
  header _ := by decide
  pending p h := by cases h

variable {d : FrameDecoder} {p : PendingFrame}

theorem WellFormed.wanted_pos (h : d.WellFormed) : 0 < d.wanted := by
  unfold wanted
  split
  · have := h.header ‹_›
    omega
  · exact (h.pending _ ‹_›).1

/-- A header that parses announces a payload within the limit and has no flags. -/
theorem parseHeader_bounds (h : parseHeader header = .ok p) :
    p.flags = 0 ∧ p.payload.length + p.missing ≤ maxFramePayload ∧ header.length = headerSize := by
  unfold parseHeader at h
  split at h
  · split_ifs at h
    split at h
    · cases h
    · dsimp only at h
      split_ifs at h with hFlags hLarge
      cases h
      refine ⟨not_not.mp hFlags, ?_, rfl⟩
      rw [length_nil, Nat.zero_add]
      exact Nat.le_of_not_lt hLarge
  · cases h

theorem complete_spec (hFlags : p.flags = 0)
    (hLen : p.payload.length + p.missing ≤ maxFramePayload) :
    (∃ d, complete p = (d, none) ∧ d.WellFormed ∧ d.buffered = p.bytes) ∨
      ∃ r, complete p = (new, some r) ∧
        ∀ rest, decodeBytes (p.bytes ++ rest) = r.map fun f => some (f, rest) := by
  unfold complete
  split_ifs with hMissing
  · refine .inl ⟨_, rfl, ⟨?_, ?_⟩, rfl⟩
    · intro h
      cases h
    · intro _ h
      cases h
      exact ⟨hMissing, hFlags, hLen⟩
  · refine .inr ⟨_, rfl, fun rest => ?_⟩
    have hZero : p.missing = 0 := Nat.eq_zero_of_not_pos hMissing
    rw [hZero, Nat.add_zero] at hLen
    rw [PendingFrame.bytes, hZero, Nat.add_zero, hFlags, append_assoc,
      decodeBytes_encodeHeader _ _ hLen, decodePayload_append]

/-- **One read.** Either the frame is still incomplete and its bytes stay buffered, or the
call returns, the decoder is new, and the result is what the bytes since the last result
decode to, whatever comes after them. -/
theorem feed_spec (hForm : d.WellFormed) (hLen : chunk.length ≤ d.wanted) :
    (∃ d', d.feed chunk = (d', none) ∧ d'.WellFormed ∧ d'.buffered = d.buffered ++ chunk) ∨
      ∃ r, d.feed chunk = (new, some r) ∧
        ∀ rest, decodeBytes (d.buffered ++ chunk ++ rest) = r.map fun f => some (f, rest) := by
  obtain ⟨header, pending⟩ := d
  cases pending with
  | none =>
    have hBuffered : buffered ⟨header, none⟩ = header := rfl
    rw [hBuffered]
    have hWanted : chunk.length ≤ headerSize - header.length := hLen
    simp only [feed]
    split_ifs with hShort
    · refine .inl ⟨_, rfl, ⟨fun _ => hShort, ?_⟩, rfl⟩
      intro _ h
      cases h
    · have hFull : (header ++ chunk).length = headerSize := by
        have := hForm.header rfl
        rw [length_append] at hShort ⊢
        dsimp only at this
        omega
      split
      · rename_i hParse
        refine .inr ⟨_, rfl, fun rest => ?_⟩
        rw [decodeBytes_of_header hFull, hParse]
        rfl
      · rename_i hParse
        obtain ⟨hFlags, hMax, -⟩ := parseHeader_bounds hParse
        rw [← bytes_of_parseHeader hParse]
        exact complete_spec hFlags hMax
  | some p =>
    have hBuffered : buffered ⟨header, some p⟩ = p.bytes := rfl
    obtain ⟨_, hFlags, _⟩ := hForm.pending p rfl
    have hWanted : chunk.length ≤ p.missing := hLen
    rw [hBuffered, ← PendingFrame.bytes_append hWanted]
    refine complete_spec hFlags ?_
    show (p.payload ++ chunk).length + (p.missing - chunk.length) ≤ maxFramePayload
    rw [length_append]
    omega

/-- The end of the input, where the bytes since the last result are all there is. -/
theorem feedEof_spec (hForm : d.WellFormed) :
    decodeBytes d.buffered = d.feedEof.map fun _ => none := by
  obtain ⟨header, pending⟩ := d
  cases pending with
  | none =>
    have hShort : header.length < headerSize := hForm.header rfl
    have hBuffered : buffered ⟨header, none⟩ = header := rfl
    rw [hBuffered]
    simp only [decodeBytes, feedEof]
    by_cases hEmpty : header.length = 0
    · rw [if_pos hEmpty, if_pos hEmpty]
      rfl
    · rw [if_neg hEmpty, if_neg hEmpty, if_pos hShort]
      rfl
  | some p =>
    obtain ⟨_, hFlags, hMax⟩ := hForm.pending p rfl
    have hBuffered : buffered ⟨header, some p⟩ = p.bytes := rfl
    rw [hBuffered, PendingFrame.bytes, hFlags, decodeBytes_encodeHeader _ _ hMax, decodePayload,
      if_pos (by dsimp only; omega)]
    rfl

end FrameDecoder

/-! ## The caller -/

/-- The read loop of a `decode` call. -/
inductive ReadLoop where
  | header
  | payload
deriving DecidableEq

/-- The loop a call enters: the header loop unless a frame is pending. -/
def FrameDecoder.enter (d : FrameDecoder) : ReadLoop :=
  if d.pending.isNone then .header else .payload

/-- The header loop leaves when it has made a frame pending. -/
def ReadLoop.next : ReadLoop → FrameDecoder → ReadLoop
  | .header, d => if d.pending.isSome then .payload else .header
  | .payload, _ => .payload

/-- One decoder, one transport and the calls made so far. -/
structure Decoding where
  decoder : FrameDecoder
  /-- The loop in which the call in progress waits for a read. -/
  call : Option ReadLoop
  unread : List UInt8
  -- History: what the reads returned, their number, and what the calls returned.
  taken : List UInt8
  reads : Nat
  results : List (Except ProtocolError (Option Frame))
deriving DecidableEq

inductive DecodeEvent where
  /-- `decode` is called. -/
  | call
  /-- The read returns the next `n` bytes; none at the end of the input. -/
  | read (n : Nat)
  /-- The read fails. -/
  | fail
  /-- The call is dropped while it waits. -/
  | drop
deriving DecidableEq

namespace Decoding

def start (input : List UInt8) : Decoding where
  decoder := .new
  call := none
  unread := input
  taken := []
  reads := 0
  results := []

def returns (s : Decoding) (decoder : FrameDecoder) (result : Except ProtocolError (Option Frame)) :
    Decoding :=
  { s with decoder, call := none, results := s.results ++ [result] }

/-- A clean end of the input was returned. -/
def ended (s : Decoding) : Bool := s.results.getLast? = some (.ok none)

/-- A read that returned the next `n` bytes. -/
def readBytes (s : Decoding) (loop : ReadLoop) (n : Nat) : Decoding :=
  let after := { s with
    unread := s.unread.drop n, taken := s.taken ++ s.unread.take n, reads := s.reads + 1 }
  match s.decoder.feed (s.unread.take n) with
  | (decoder, none) => { after with decoder, call := some (loop.next decoder) }
  | (decoder, some result) => after.returns decoder (result.map some)

/-- A read that returned no bytes. -/
def readEof (s : Decoding) : Decoding :=
  let after := { s with reads := s.reads + 1 }
  match s.decoder.feedEof with
  | .ok () => after.returns s.decoder (.ok none)
  | .error e => after.returns .new (.error e)

/-- A read returns at least one and at most the wanted bytes, or none at the end. The payload
loop works on the pending frame: without one its `expect` would panic, which is no step. -/
def step (s : Decoding) : DecodeEvent → Option Decoding
  | .call =>
    if s.call = none ∧ s.ended = false then some { s with call := some s.decoder.enter } else none
  | .read n =>
    match s.call with
    | none => none
    | some loop =>
      if loop ≠ s.decoder.enter then none
      else if s.unread = [] then
        if n = 0 then some s.readEof else none
      else if 0 < n ∧ n ≤ s.decoder.wanted ∧ n ≤ s.unread.length then some (s.readBytes loop n)
      else none
  | .fail => if s.call.isSome then some (s.returns .new (.error .io)) else none
  | .drop => if s.call.isSome then some { s with call := none } else none

/-! ## What an event does -/

/-- The effect of one event on a decoder that is well formed. -/
inductive Effect (s : Decoding) : DecodeEvent → Decoding → Prop where
  | moved (event : DecodeEvent) (call : Option ReadLoop)
      (hCall : ∀ loop, call = some loop → loop = s.decoder.enter) :
      Effect s event { s with call }
  | read (chunk rest : List UInt8) (hUnread : s.unread = chunk ++ rest) (hSome : chunk ≠ [])
      (decoder : FrameDecoder) (hForm : decoder.WellFormed)
      (hBuffered : decoder.buffered = s.decoder.buffered ++ chunk) :
      Effect s (.read chunk.length) { s with
        decoder
        call := some decoder.enter
        unread := rest
        taken := s.taken ++ chunk
        reads := s.reads + 1 }
  | returned (chunk rest : List UInt8) (hUnread : s.unread = chunk ++ rest)
      (result : Except ProtocolError (Option Frame))
      (hResult : decodeBytes (s.decoder.buffered ++ s.unread) =
        result.map (Option.map fun f => (f, rest))) :
      Effect s (.read chunk.length)
        { decoder := .new
          call := none
          unread := rest
          taken := s.taken ++ chunk
          reads := s.reads + 1
          results := s.results ++ [result] }
  | failed : Effect s .fail (s.returns .new (.error .io))

variable {d : FrameDecoder} {loop : ReadLoop}

variable {s : Decoding}

theorem next_eq_enter {d' : FrameDecoder} (hLoop : loop = d.enter)
    (h : d.feed chunk = (d', none)) : loop.next d' = d'.enter := by
  subst hLoop
  obtain ⟨_, pending⟩ := d
  cases pending with
  | none =>
    obtain ⟨_, pending'⟩ := d'
    cases pending' <;> rfl
  | some =>
    -- A payload that is still incomplete stays pending.
    simp only [feed, complete] at h
    split_ifs at h
    · cases h
      rfl
    · simp at h

theorem readBytes_effect {n : Nat} (hForm : s.decoder.WellFormed)
    (hLoop : loop = s.decoder.enter) (hPos : 0 < n) (hWanted : n ≤ s.decoder.wanted)
    (hLen : n ≤ s.unread.length) : Effect s (.read n) (s.readBytes loop n) := by
  have hTake : (s.unread.take n).length = n := by
    rw [length_take]
    omega
  have hUnread : s.unread = s.unread.take n ++ s.unread.drop n := (take_append_drop n _).symm
  have hSome : s.unread.take n ≠ [] := by
    rw [← length_pos_iff, hTake]
    exact hPos
  rw [show DecodeEvent.read n = .read (s.unread.take n).length by rw [hTake]]
  rcases feed_spec hForm (hTake.trans_le hWanted) with
    ⟨decoder, hFeed, hForm', hBuffered⟩ | ⟨result, hFeed, hResult⟩
  · have hNext := next_eq_enter hLoop hFeed
    simp only [readBytes, hFeed, hNext]
    exact .read _ _ hUnread hSome decoder hForm' hBuffered
  · simp only [readBytes, hFeed, returns]
    refine .returned _ _ hUnread _ ?_
    rw [show s.decoder.buffered ++ s.unread =
      s.decoder.buffered ++ s.unread.take n ++ s.unread.drop n by
        rw [append_assoc, take_append_drop], hResult]
    cases result <;> rfl

/-- Only a decoder with nothing buffered sees a clean end. -/
theorem eq_new_of_feedEof (h : d.feedEof = .ok ()) : d = .new := by
  obtain ⟨_, pending⟩ := d
  cases pending with
  | none =>
    simp only [feedEof] at h
    split_ifs at h with hEmpty
    rw [length_eq_zero_iff.mp hEmpty]
    rfl
  | some => cases h

theorem readEof_effect (hForm : s.decoder.WellFormed) (hUnread : s.unread = []) :
    Effect s (.read 0) s.readEof := by
  have hSpec := feedEof_spec hForm
  have hBytes : s.decoder.buffered ++ s.unread = s.decoder.buffered := by
    rw [hUnread, append_nil]
  have hTaken : s.taken = s.taken ++ [] := (append_nil _).symm
  unfold readEof
  cases hEof : s.decoder.feedEof with
  | ok =>
    have hReturned := Effect.returned (s := s) [] [] hUnread (.ok none)
      (by rw [hBytes, hSpec, hEof]; rfl)
    rw [← hTaken] at hReturned
    simpa [returns, eq_new_of_feedEof hEof, hUnread] using hReturned
  | error e =>
    have hReturned := Effect.returned (s := s) [] [] hUnread (.error e)
      (by rw [hBytes, hSpec, hEof]; rfl)
    rw [← hTaken] at hReturned
    simpa [returns, hUnread] using hReturned

variable {event : DecodeEvent} {s' : Decoding} {input : List UInt8}

/-- **Inversion.** -/
theorem step_effect (hForm : s.decoder.WellFormed) (h : s.step event = some s') :
    Effect s event s' := by
  cases event with
  | call =>
    simp only [step] at h
    split_ifs at h
    cases h
    exact .moved _ _ fun loop hLoop => (Option.some.inj hLoop).symm
  | read n =>
    simp only [step] at h
    split at h
    · cases h
    · rename_i hCall
      split_ifs at h with hLoop hUnread hZero hRange
      · cases h
        subst hZero
        exact readEof_effect hForm hUnread
      · cases h
        exact readBytes_effect hForm (not_not.mp hLoop) hRange.1 hRange.2.1 hRange.2.2
  | fail =>
    simp only [step] at h
    split_ifs at h
    cases h
    exact .failed
  | drop =>
    simp only [step] at h
    split_ifs at h
    cases h
    exact .moved _ _ nofun

/-! ## What every run keeps -/

structure Sound (input : List UInt8) (s : Decoding) : Prop where
  wellFormed : s.decoder.WellFormed
  fits : ∀ loop, s.call = some loop → loop = s.decoder.enter
  bytes : s.taken ++ s.unread = input
  reads : s.reads ≤ s.taken.length + s.results.length

theorem sound_start (input : List UInt8) : (start input).Sound input where
  wellFormed := wellFormed_new
  fits _ h := by cases h
  bytes := rfl
  reads := Nat.le_refl 0

theorem Sound.step (h : s.Sound input) (hStep : s.step event = some s') :
    s'.Sound input := by
  have hBytes := h.bytes
  have hReads := h.reads
  cases step_effect h.wellFormed hStep with
  | moved _ _ hCall => exact ⟨h.wellFormed, hCall, h.bytes, h.reads⟩
  | read chunk _ hUnread hSome _ hForm _ =>
    have hPos : 0 < chunk.length := length_pos_iff.mpr hSome
    refine ⟨hForm, fun loop hLoop => (Option.some.inj hLoop).symm, ?_, ?_⟩
    · rw [← hBytes, hUnread, append_assoc]
    · show s.reads + 1 ≤ (s.taken ++ chunk).length + s.results.length
      rw [length_append]
      omega
  | returned chunk _ hUnread result _ =>
    refine ⟨wellFormed_new, nofun, ?_, ?_⟩
    · rw [← hBytes, hUnread, append_assoc]
    · show s.reads + 1 ≤ (s.taken ++ chunk).length + (s.results ++ [result]).length
      rw [length_append, length_append, length_singleton]
      omega
  | failed =>
    refine ⟨wellFormed_new, nofun, h.bytes, ?_⟩
    show s.reads ≤ s.taken.length + (s.results ++ [_]).length
    rw [length_append]
    omega

theorem sound_of_run {events : List DecodeEvent}
    (hRun : exec step (start input) events = some s) : s.Sound input :=
  exec_induction (fun _ _ _ h hStep => h.step hStep) (sound_start input) hRun

/-- The caller can call, or the call's next read can return. -/
def goesOn (s : Decoding) : Prop :=
  ∃ event, (event = .call ∨ ∃ n, event = .read n) ∧ (s.step event).isSome

/-- A call never hangs on the decoder: any read the transport answers goes on. -/
theorem Sound.goesOn (h : s.Sound input) (hEnded : s.ended = false) : s.goesOn := by
  cases hCall : s.call with
  | none => exact ⟨.call, .inl rfl, by simp [Decoding.step, hCall, hEnded]⟩
  | some loop =>
    have hLoop := h.fits loop hCall
    by_cases hUnread : s.unread = []
    · exact ⟨.read 0, .inr ⟨0, rfl⟩, by simp [Decoding.step, hCall, hLoop, hUnread]⟩
    · have hLen : 1 ≤ s.unread.length := length_pos_iff.mpr hUnread
      have hWanted : 1 ≤ s.decoder.wanted := h.wellFormed.wanted_pos
      exact ⟨.read 1, .inr ⟨1, rfl⟩, by simp [Decoding.step, hCall, hLoop, hUnread, hLen, hWanted]⟩

/-! ## Concatenated encodings -/

/-- What the calls return for these frames: each of them, then the clean end. -/
def expected (frames : List Frame) : List (Except ProtocolError (Option Frame)) :=
  frames.map (fun f => .ok (some f)) ++ [.ok none]

/-- The first frames have been returned, and the bytes of the others are buffered or unread;
or everything has been returned. -/
inductive Follows (frames : List Frame) (s : Decoding) : Prop where
  | within (decoded rest : List Frame) (hFrames : frames = decoded ++ rest)
      (hResults : s.results = decoded.map fun f => .ok (some f))
      (hBytes : s.decoder.buffered ++ s.unread = encodeAll rest)
      (hTaken : s.taken = encodeAll decoded ++ s.decoder.buffered)
  | done (hResults : s.results = expected frames) (hUnread : s.unread = [])
      (hTaken : s.taken = encodeAll frames) (hDecoder : s.decoder = .new) (hCall : s.call = none)

theorem Follows.step {frames : List Frame} (hSound : s.Sound input)
    (h : s.Follows frames) (hFail : event ≠ .fail) (hStep : s.step event = some s') :
    s'.Follows frames := by
  cases h with
  | done hResults _ _ _ hCall =>
    -- After the clean end no call is made, so nothing is enabled.
    have hEnded : s.ended = true := by simp [ended, hResults, expected]
    cases event <;> simp [Decoding.step, hCall, hEnded] at hStep
  | within decoded rest hFrames hResults hBytes hTaken =>
    cases step_effect hSound.wellFormed hStep with
    | moved => exact .within decoded rest hFrames hResults hBytes hTaken
    | read chunk rest' hUnread _ decoder _ hBuffered =>
      refine .within decoded rest hFrames hResults ?_ ?_
      · show decoder.buffered ++ rest' = encodeAll rest
        rw [hBuffered, ← hBytes, hUnread, append_assoc]
      · show s.taken ++ chunk = encodeAll decoded ++ decoder.buffered
        rw [hTaken, hBuffered, append_assoc]
    | failed => exact absurd rfl hFail
    | returned chunk rest' hUnread result hResult =>
      rw [hBytes] at hResult
      have hChunk : s.decoder.buffered ++ chunk ++ rest' = encodeAll rest := by
        rw [← hBytes, hUnread, append_assoc]
      cases rest with
      | nil =>
        -- Nothing is left: only the clean end can be returned.
        have hNone : result = .ok none := by
          rw [show decodeBytes (encodeAll []) = .ok none from rfl] at hResult
          rcases result with e | _ | f <;> cases hResult
          rfl
        obtain ⟨hHead, hRest⟩ := append_eq_nil_iff.mp hChunk
        obtain ⟨hBuffered, hEmpty⟩ := append_eq_nil_iff.mp hHead
        rw [append_nil] at hFrames
        refine .done ?_ hRest ?_ rfl rfl
        · show s.results ++ [result] = expected frames
          rw [hResults, hNone, hFrames, expected]
        · show s.taken ++ chunk = encodeAll frames
          rw [hTaken, hBuffered, hEmpty, hFrames, append_nil, append_nil]
      | cons f more =>
        have hWire : encodeAll (f :: more) = f.wire ++ encodeAll more := by
          rw [encodeAll, flatMap_cons, encodeAll]
        rw [hWire, decodeBytes_wire] at hResult
        obtain ⟨hResult', hRest⟩ : result = .ok (some f) ∧ rest' = encodeAll more := by
          rcases result with _ | _ | _
          · cases hResult
          · cases hResult
          · simp only [Except.map, Option.map_some, Except.ok.injEq, Option.some.injEq,
              Prod.mk.injEq] at hResult
            exact ⟨by rw [hResult.1], hResult.2.symm⟩
        have hTook : s.decoder.buffered ++ chunk = f.wire := by
          rw [hWire, hRest] at hChunk
          exact append_cancel_right hChunk
        refine .within (decoded ++ [f]) more ?_ ?_ ?_ ?_
        · rw [hFrames, append_assoc]
          rfl
        · show s.results ++ [result] = _
          rw [hResults, hResult', map_append]
          rfl
        · show [] ++ rest' = encodeAll more
          rw [hRest, nil_append]
        · show s.taken ++ chunk = encodeAll (decoded ++ [f]) ++ []
          rw [hTaken, append_assoc, hTook, encodeAll_append, encodeAll_singleton,
            append_nil]

/-- The frames among the results. -/
def frames (s : Decoding) : List Frame :=
  s.results.filterMap fun
    | .ok (some f) => some f
    | _ => none

theorem follows_of_run {input : List Frame} {events : List DecodeEvent}
    (hEvents : .fail ∉ events)
    (hRun : exec step (start (encodeAll input)) events = some s) :
    s.Follows input := by
  have hBoth : s.Sound (encodeAll input) ∧ s.Follows input := by
    refine exec_induction_guarded
      (P := fun s => s.Sound (encodeAll input) ∧ s.Follows input)
      (G := fun _ event => event ≠ DecodeEvent.fail) ?_
        ⟨sound_start _, .within [] input rfl rfl rfl rfl⟩
      (guarded_of_forall ?_) hRun
    · intro _ _ _ h hFail hStep
      exact ⟨h.1.step hStep, h.2.step h.1 hFail hStep⟩
    · intro _ hMem hEq
      exact hEvents (hEq ▸ hMem)
  exact hBoth.2

/-- **Every cut, every dropped call.** Over the concatenated encodings of any frames, with
reads of any sizes and calls dropped at any point, the calls return those frames in order and
then the clean end. Every byte is in a returned frame, in the decoder or unread, exactly once.
Until the clean end the caller or the next read can go on, and the number of reads is
bounded. -/
theorem decode_survives_every_cut (input : List Frame) (events : List DecodeEvent) (s : Decoding)
    (hEvents : .fail ∉ events)
    (hRun : exec step (start (encodeAll input)) events = some s) :
    s.results <+: expected input ∧ s.taken ++ s.unread = encodeAll input ∧
      s.taken = encodeAll s.frames ++ s.decoder.buffered ∧
      s.reads ≤ (encodeAll input).length + (input.length + 1) ∧
      (s.ended = true → s.results = expected input ∧ s.unread = []) ∧
      (s.ended = false → s.goesOn) := by
  have hSound := sound_of_run hRun
  have hFollows := follows_of_run hEvents hRun
  have hReads := hSound.reads
  have hLength : s.taken.length ≤ (encodeAll input).length := by
    rw [← hSound.bytes, length_append]
    omega
  have hPrefix : s.results <+: expected input := by
    cases hFollows with
    | within _ _ hFrames hResults =>
      rw [hResults, expected, hFrames, map_append, append_assoc]
      exact prefix_append _ _
    | done hResults => rw [hResults]
  have hCount : s.results.length ≤ input.length + 1 := by
    have := hPrefix.length_le
    simpa [expected] using this
  refine ⟨hPrefix, hSound.bytes, ?_, by omega, ?_, hSound.goesOn⟩
  · cases hFollows with
    | within _ _ _ hResults _ hTaken =>
      rw [hTaken, frames, hResults]
      simp [filterMap_map]
    | done hResults _ hTaken hDecoder =>
      rw [hTaken, frames, hResults, hDecoder, expected, buffered_new, append_nil]
      simp [filterMap_append, filterMap_map]
  · intro hEnded
    cases hFollows with
    | within _ _ _ hResults =>
      -- The results are frames only, so the last one is no clean end.
      simp [ended, hResults, getLast?_map] at hEnded
    | done hResults hUnread => exact ⟨hResults, hUnread⟩

namespace CutExample

def ping : Frame := ⟨.ping, 0, 0, [], Frame.zero_flags, Frame.nil_fits, Frame.ping_scope⟩

def data : Frame := ⟨.data, 0, 7, [1, 2, 3], Frame.zero_flags, by decide, by decide⟩

/-- The first header comes in two pieces with a dropped call between them, the second header
is read by a call that is dropped before its payload, which comes in two pieces. -/
def events : List DecodeEvent :=
  [.call, .read 5, .drop, .call, .read 11, .call, .read 16, .drop, .call, .read 2, .read 1,
    .call, .read 0]

end CutExample

theorem decode_survives_every_cut_pinged :
    ∃ s, exec step (start (encodeAll [CutExample.ping, CutExample.data]))
        CutExample.events = some s ∧
      s.results = [.ok (some CutExample.ping), .ok (some CutExample.data), .ok none] ∧
      s.unread = [] := by
  obtain ⟨s, hs, hEnded⟩ : ∃ s, exec step (start (encodeAll [CutExample.ping, CutExample.data]))
      CutExample.events = some s ∧ ended s := by decide +kernel
  obtain ⟨-, -, -, -, hDone, -⟩ :=
    decode_survives_every_cut [CutExample.ping, CutExample.data] CutExample.events s (by decide) hs
  exact ⟨s, hs, hDone hEnded⟩

/-! ## The accepted byte strings -/

/-- The size of the payload buffer that is allocated. -/
def payloadBuffer (s : Decoding) : Nat :=
  match s.decoder.pending with
  | none => 0
  | some p => p.payload.length + p.missing

theorem Sound.payloadBuffer_le (h : s.Sound input) :
    s.payloadBuffer ≤ maxFramePayload := by
  unfold payloadBuffer
  split
  · exact Nat.zero_le _
  · exact (h.wellFormed.pending _ ‹_›).2.2

/-- Before the first result all bytes taken in are buffered. -/
theorem buffered_of_run {events : List DecodeEvent}
    (hRun : exec step (start input) events = some s) :
    s.results = [] → s.decoder.buffered = s.taken := by
  have hBoth : s.Sound input ∧ (s.results = [] → s.decoder.buffered = s.taken) := by
    refine exec_induction
      (P := fun s => s.Sound input ∧ (s.results = [] → s.decoder.buffered = s.taken)) ?_
      ⟨sound_start input, fun _ => rfl⟩ hRun
    intro _ _ _ h hStep
    refine ⟨h.1.step hStep, fun hResults => ?_⟩
    cases step_effect h.1.wellFormed hStep with
    | moved => exact h.2 hResults
    | read _ _ _ _ _ _ hBuffered =>
      rw [hBuffered, h.2 hResults]
    | returned => simp at hResults
    | failed => simp [returns] at hResults
  exact hBoth.2

/-- The event that returns the first result returns what the whole input decodes to. -/
theorem first_result {events : List DecodeEvent}
    {result : Except ProtocolError (Option Frame)} (hRun : exec step (start input) events = some s)
    (hNone : s.results = []) (hEvent : event ≠ .fail) (hStep : s.step event = some s')
    (hResults : s'.results = [result]) :
    s'.taken ++ s'.unread = input ∧
      decodeBytes input = result.map (Option.map fun f => (f, s'.unread)) := by
  have hSound := sound_of_run hRun
  have hBuffered := buffered_of_run hRun hNone
  refine ⟨(hSound.step hStep).bytes, ?_⟩
  cases step_effect hSound.wellFormed hStep with
  | moved | read =>
    simp [hNone] at hResults
  | failed => exact absurd rfl hEvent
  | returned _ _ _ result' hResult =>
    have hEq : result' = result := by simpa [hNone] using hResults
    rw [hBuffered, hSound.bytes, hEq] at hResult
    exact hResult

/-- **The accepted byte strings.** Whatever the cuts and the dropped calls, the first call
that completes on `input` returns the frame `f` and has taken exactly `p` in if and only if
`p` starts the input and is the encoding of `f`. No bytes at all are the clean end, and any
other input is an error. In every state the payload buffer is within the limit, and an error
leaves the decoder as it was created. -/
theorem decode_accepts_encodings (input : List UInt8) (events : List DecodeEvent) (s : Decoding)
    (hRun : exec step (start input) events = some s) :
    s.payloadBuffer ≤ maxFramePayload ∧ s.reads ≤ input.length + s.results.length ∧
      (s.results = [] → s.goesOn) ∧
      (∀ event s' e, s.step event = some s' → s'.results = s.results ++ [.error e] →
        s'.decoder = .new) ∧
      (s.results = [] → ∀ event s' result, event ≠ .fail → s.step event = some s' →
        s'.results = [result] → (∀ f p, result = .ok (some f) ∧ s'.taken = p ↔
            FrameEncoder.encode f = .ok p ∧ p <+: input) ∧
          (result = .ok none ↔ input = []) ∧
          (input ≠ [] → (∀ f p, FrameEncoder.encode f = .ok p → ¬ p <+: input) →
            ∃ e, result = .error e)) := by
  have hSound := sound_of_run hRun
  have hReads := hSound.reads
  have hLength : s.taken.length ≤ input.length := by
    rw [← hSound.bytes, length_append]
    omega
  refine ⟨hSound.payloadBuffer_le, by omega, ?_, ?_, ?_⟩
  · intro hNone
    exact hSound.goesOn (by simp [ended, hNone])
  · intro _ _ _ hStep hResults
    cases step_effect hSound.wellFormed hStep with
    | moved => simp at hResults
    | read => simp at hResults
    | returned => rfl
    | failed => rfl
  · intro hNone _ s' result hEvent hStep hResults
    obtain ⟨hBytes, hDecodes⟩ := first_result hRun hNone hEvent hStep hResults
    refine ⟨?_, ?_, ?_⟩
    · intro f _
      rw [encode_eq_ok, Except.ok.injEq]
      constructor
      · rintro ⟨rfl, rfl⟩
        -- the bytes taken are those of the frame, since the rest is the same
        have hInput : input = f.wire ++ s'.unread := decodeBytes_eq_frame.mp hDecodes
        have hTaken : s'.taken = f.wire := append_cancel_right (hBytes.trans hInput)
        exact ⟨hTaken.symm, s'.unread, hBytes⟩
      · rintro ⟨rfl, _, hRest⟩
        rw [← hRest, decodeBytes_wire] at hDecodes
        rcases result with _ | _ | _
        · cases hDecodes
        · cases hDecodes
        · simp only [Except.map, Option.map_some, Except.ok.injEq, Option.some.injEq,
            Prod.mk.injEq] at hDecodes
          rw [← hRest, hDecodes.2] at hBytes
          exact ⟨by rw [hDecodes.1], append_cancel_right hBytes⟩
    · rw [← decodeBytes_eq_none, hDecodes]
      rcases result with e | _ | g <;> simp [Except.map]
    · intro hInput hOther
      obtain ⟨_, hError⟩ := decodeBytes_error hInput fun f hf =>
        hOther f f.wire (encode_eq_ok f) hf
      rw [hError] at hDecodes
      rcases result with e' | _ | _
      · exact ⟨e', rfl⟩
      · cases hDecodes
      · cases hDecodes

/-- The header of a `PING` with a byte too few, and then the rest: the call that waits for
the last byte returns the frame. -/
theorem decode_accepts_encodings_pinged :
    ∃ s s', exec step (start CutExample.ping.wire) [.call, .read 15] = some s ∧
      s.step (.read 1) = some s' ∧ s'.results = [.ok (some CutExample.ping)] ∧
      s'.taken = CutExample.ping.wire ∧ s.payloadBuffer ≤ maxFramePayload := by
  obtain ⟨s, hs, hNone, s', hStep, hOne⟩ : ∃ s,
      exec step (start CutExample.ping.wire) [.call, .read 15] = some s ∧ s.results = [] ∧
      ∃ s', s.step (.read 1) = some s' ∧ s'.results.length = 1 := by decide +kernel
  obtain ⟨result, hResults⟩ := length_eq_one_iff.mp hOne
  obtain ⟨hBuffer, -, -, -, hFirst⟩ := decode_accepts_encodings CutExample.ping.wire
    [.call, .read 15] s hs
  obtain ⟨hFrame, -, -⟩ := hFirst hNone (.read 1) s' result (by decide) hStep hResults
  obtain ⟨rfl, hTaken⟩ := (hFrame CutExample.ping _).mpr
    ⟨encode_eq_ok _, prefix_refl _⟩
  exact ⟨s, s', hs, hStep, hResults, hTaken, hBuffer⟩

/-- No bytes start no encoding, and reading them to their end is no error. -/
theorem decode_of_no_bytes : (∀ f p, FrameEncoder.encode f = .ok p → ¬ p <+: []) ∧
      (exec step (start []) [.call, .read 0]).map results = some [.ok none] := by
  refine ⟨?_, by decide +kernel⟩
  intro f _ hEncode hPrefix
  rw [encode_eq_ok, Except.ok.injEq] at hEncode
  exact f.wire_ne_nil (hEncode.trans (prefix_nil.mp hPrefix))

end Decoding

end TunnelProxy.Protocol
