import TunnelProxy.Mux.Stream

/-!
# What one stream task preserves

Three invariants of a stream task, each kept by every one of its steps whatever
the peer, the sockets and the timers do:

* `Receives` — what the task wrote to its socket is a prefix of the DATA payloads
  it consumed, and all of them once it reports `Graceful`.
* `Sends` — the frames it sends carry exactly what it read, and `END_STREAM` is
  built last, after everything that was read.
* `Opens` — it relays only after its `OPEN_STREAM` was accepted and, on the Edge,
  after the Agent's acknowledgement was consumed.
-/

namespace TunnelProxy.Mux.StreamTask

open Protocol List

/-! ## What the histories have in common -/

/-- The payloads of the DATA frames, in order. -/
def dataBytes (frames : List Frame) : List UInt8 :=
  (frames.filter fun f => f.frameType = .data).flatMap Frame.payload

@[simp] theorem dataBytes_nil : dataBytes [] = [] := rfl

@[simp] theorem dataBytes_append (xs ys : List Frame) :
    dataBytes (xs ++ ys) = dataBytes xs ++ dataBytes ys := by
  simp [dataBytes]

theorem dataBytes_singleton (f : Frame) :
    dataBytes [f] = if f.frameType = .data then f.payload else [] := by
  by_cases h : f.frameType = .data <;> simp [dataBytes, h]

/-- The task has not left its work: no reset, no `Closed`, not ended. -/
def live (t : StreamTask) : Bool :=
  match t.phase with
  | .sendReset _ | .closing | .ended => false
  | _ => true

/-- The rest of the payload that `write_all` is working on. -/
def unwritten (t : StreamTask) : List UInt8 :=
  match t.phase with
  | .writing rest => rest
  | _ => []

/-- The frame that waits for the data queue. -/
def pendingData (t : StreamTask) : List Frame :=
  match t.phase with
  | .sendData frame => [frame]
  | _ => []

/-- The stream was opened and its relay loop has not ended. -/
def relaying (t : StreamTask) : Bool :=
  match t.phase with
  | .relay | .writing _ | .shuttingDown | .sendData _ => true
  | _ => false

/-- Two states of a task that differ only in where it is suspended and in what it
reports. -/
structure SameHistory (t t' : StreamTask) : Prop where
  side : t'.side = t.side
  id : t'.id = t.id
  localEnded : t'.localEnded = t.localEnded
  inbound : t'.inbound = t.inbound
  socketRead : t'.socketRead = t.socketRead
  socketWritten : t'.socketWritten = t.socketWritten
  consumed : t'.consumed = t.consumed
  produced : t'.produced = t.produced
  sentData : t'.sentData = t.sentData
  acked : t'.acked = t.acked
  born : t'.born = t.born

theorem sameHistory_loopTop (t : StreamTask) : SameHistory t t.loopTop := by
  unfold loopTop
  split_ifs <;> constructor <;> rfl

variable {frame : Frame} {t t' : StreamTask} {e : TaskEvent} {reason : RoutedStreamCloseReason}
  {code : StreamResetCode} {rest : List Frame}

/-- What a frame makes of a task: it begins to relay, leaves its work, or goes on relaying. -/
inductive FrameEffect (t : StreamTask) (frame : Frame) : StreamTask → Prop where
  | opened (hPhase : t.phase = .awaitOpen) (hType : frame.frameType = .openStream) :
      FrameEffect t frame { t with response := some (.ok t.id), phase := .relay }
  | closed (response : Option (Except RouteError StreamId)) (reason : RoutedStreamCloseReason)
      (hReason : reason ≠ .graceful) : FrameEffect t frame (close { t with response } reason)
  | reset (response : Option (Except RouteError StreamId)) :
      FrameEffect t frame (reset { t with response } .protocolViolation .protocolViolation)
  | empty (hPhase : t.phase = .relay) (hType : frame.frameType = .data)
      (hEmpty : frame.payload = []) : FrameEffect t frame t.loopTop
  | writes (hPhase : t.phase = .relay) (hType : frame.frameType = .data)
      (hSome : frame.payload ≠ []) : FrameEffect t frame { t with phase := .writing frame.payload }
  | ended (hPhase : t.phase = .relay) (hType : frame.frameType = .endStream) :
      FrameEffect t frame { t with peerEnded := true, phase := .shuttingDown }

/-- **Inversion.** A task takes a frame only where it has nothing to write or to send. -/
theorem onFrame_effect (h : t.onFrame frame = some t') :
    (t.phase = .awaitOpen ∨ t.phase = .connecting ∨ t.phase = .relay) ∧ FrameEffect t frame t' := by
  unfold onFrame at h
  split at h <;> rename_i hPhase <;> cases h
  · refine ⟨.inl hPhase, ?_⟩
    unfold openAnswer
    split_ifs with hOpen
    · exact .opened hPhase hOpen.1
    · exact .closed _ _ (by simp)
    · exact .reset _
  · refine ⟨.inr (.inl hPhase), ?_⟩
    unfold connectingFrame
    split_ifs
    · exact .reset t.response
    · exact .closed t.response _ (by simp)
  · refine ⟨.inr (.inr hPhase), ?_⟩
    unfold relayFrame
    split <;> rename_i hType
    · split_ifs with hEnded hEmpty
      · exact .reset t.response
      · exact .empty hPhase hType (isEmpty_iff.mp hEmpty)
      · exact .writes hPhase hType (by simpa using hEmpty)
    · split_ifs
      · exact .ended hPhase hType
      · exact .reset t.response
    · split
      · exact .closed t.response _ (by simp)
      · exact .reset t.response
    · exact .reset t.response

theorem sameHistory_onFrame (h : t.onFrame frame = some t') : SameHistory t t' := by
  cases (onFrame_effect h).2 with
  | empty => exact sameHistory_loopTop t
  | _ => constructor <;> rfl

/-- What a step makes of a task: it goes on with its work, or leaves it. -/
inductive Move (t : StreamTask) : TaskEvent → StreamTask → Prop where
  | read (chunk : List UInt8) (hLen : chunk.length ≤ multiplexedDataPayloadSize)
      (hPhase : t.phase = .relay) (hOpen : t.localEnded = false) :
      Move t (.read chunk) { t with
        socketRead := t.socketRead ++ chunk
        produced := t.produced ++ [t.dataFrame chunk hLen]
        phase := .sendData (t.dataFrame chunk hLen) }
  | readEof (hPhase : t.phase = .relay) (hOpen : t.localEnded = false) :
      Move t .readEof { t with
        localEnded := true
        produced := t.produced ++ [t.endFrame]
        phase := .sendData t.endFrame }
  | sentData (frame : Frame) (hPhase : t.phase = .sendData frame) :
      Move t .sent (loopTop { t with sentData := t.sentData ++ [frame] })
  | opened (next : StreamPhase)
      (hPhase : t.phase = .sendOpen ∧ next = .awaitOpen ∨ t.phase = .sendAck ∧ next = .relay) :
      Move t .sent { t with acked := true, phase := next }
  | connected (hPhase : t.phase = .connecting) : Move t .connected { t with phase := .sendAck }
  | recv (frame : Frame) (rest : List Frame) (t' : StreamTask)
      (hInbound : t.inbound = frame :: rest)
      (hFrame : onFrame { t with inbound := rest, consumed := t.consumed ++ [frame] } frame =
        some t') : Move t .recv t'
  | written (n : Nat) (rest : List UInt8) (hPhase : t.phase = .writing rest)
      (hAll : n = rest.length) :
      Move t (.wrote n) (loopTop { t with socketWritten := t.socketWritten ++ rest.take n })
  | writing (n : Nat) (rest : List UInt8) (hPhase : t.phase = .writing rest)
      (hMore : n < rest.length) :
      Move t (.wrote n) { t with
        socketWritten := t.socketWritten ++ rest.take n, phase := .writing (rest.drop n) }
  | shutdownOk (hPhase : t.phase = .shuttingDown) : Move t .shutdownOk t.loopTop
  | finish (e : TaskEvent) (code : StreamResetCode) (he : e = .sent ∨ e = .sendFailed)
      (hPhase : t.phase = .sendReset code) : Move t e t.finish
  | drop (e : TaskEvent) (he : e = .sent ∨ e = .sendFailed) (hPhase : t.phase = .closing) :
      Move t e t.drop
  | close (e : TaskEvent) (response : Option (Except RouteError StreamId))
      (reason : RoutedStreamCloseReason) (he : e ≠ .sent) (hReason : reason ≠ .graceful) :
      Move t e (close { t with response } reason)
  | reset (e : TaskEvent) (response : Option (Except RouteError StreamId)) (code : StreamResetCode)
      (reason : RoutedStreamCloseReason) (he : e ≠ .sent) (hLive : t.live)
      (hReason : reason ≠ .graceful) : Move t e (reset { t with response } code reason)

/-- **Inversion.** Every step of a task is one of the moves. -/
theorem step_move (h : t.step e = some t') : Move t e t' := by
  cases e with
  | sent =>
    simp only [step, onSent] at h
    split at h <;> rename_i hPhase <;> cases h
    · exact .opened _ (.inl ⟨hPhase, rfl⟩)
    · exact .opened _ (.inr ⟨hPhase, rfl⟩)
    · exact .sentData _ hPhase
    · exact .finish _ _ (.inl rfl) hPhase
    · exact .drop _ (.inl rfl) hPhase
  | sendFailed =>
    simp only [step, onSendFailed] at h
    split at h <;> rename_i hPhase <;> cases h
    · exact .close _ _ _ (by simp) (by simp)
    iterate 2
      · exact .close _ t.response _ (by simp) (by simp)
    · exact .finish _ _ (.inr rfl) hPhase
    · exact .drop _ (.inr rfl) hPhase
  | recv =>
    simp only [step] at h
    split at h
    · rename_i frame rest hInbound
      exact .recv frame rest t' hInbound h
    · cases h
  | recvClosed =>
    simp only [step, onClosed] at h
    split_ifs at h
    split at h <;> cases h
    · exact .close _ _ _ (by simp) (by simp)
    iterate 2
      · exact .close _ t.response _ (by simp) (by simp)
  | openTimeout =>
    simp only [step] at h
    split_ifs at h with hPhase
    cases h
    exact .reset _ _ _ _ (by simp) (by simp [live, hPhase]) (by simp)
  | connected =>
    simp only [step] at h
    split_ifs at h with hPhase
    cases h
    exact .connected hPhase
  | connectFailed | connectTimeout | shutdownErr | idle =>
    simp only [step] at h
    split_ifs at h with hPhase
    cases h
    exact .reset _ t.response _ _ (by simp) (by simp [live, hPhase]) (by simp)
  | readErr =>
    simp only [step] at h
    split_ifs at h with hPhase
    cases h
    exact .reset _ t.response _ _ (by simp) (by simp [live, hPhase.1]) (by simp)
  | writeErr =>
    simp only [step] at h
    split at h <;> rename_i hPhase <;> cases h
    exact .reset _ t.response _ _ (by simp) (by simp [live, hPhase]) (by simp)
  | read chunk =>
    simp only [step, onRead] at h
    split_ifs at h with hLen hPhase
    cases h
    exact .read chunk hLen hPhase.1 hPhase.2.1
  | readEof =>
    simp only [step, onReadEof] at h
    split_ifs at h with hPhase
    cases h
    exact .readEof hPhase.1 hPhase.2
  | wrote n =>
    simp only [step, onWrote] at h
    split at h
    · rename_i rest hPhase
      split_ifs at h with hN hAll <;> cases h
      · exact .written n rest hPhase hAll
      · exact .writing n rest hPhase (by omega)
    · cases h
  | shutdownOk =>
    simp only [step] at h
    split_ifs at h with hPhase
    cases h
    exact .shutdownOk hPhase

/-! ## What a step does to the histories -/

theorem loopTop_live (h : t.loopTop.live) : t.loopTop.phase = .relay := by
  unfold loopTop at h ⊢
  split_ifs at h ⊢ with hBoth
  · simp [finish, live] at h
  · rfl

theorem running_loopTop (t : StreamTask) : t.loopTop.running := by
  unfold loopTop
  split_ifs <;> simp [running, finish]

/-- What no step changes. -/
theorem step_fixed (h : t.step e = some t') :
    t'.id = t.id ∧ t'.side = t.side ∧ t'.born = t.born := by
  cases step_move h with
  | sentData | written | shutdownOk =>
    have hSame := sameHistory_loopTop
    exact ⟨(hSame _).id, (hSame _).side, (hSame _).born⟩
  | recv _ _ _ _ hFrame =>
    have hSame := sameHistory_onFrame hFrame
    exact ⟨hSame.id, hSame.side, hSame.born⟩
  | _ => exact ⟨rfl, rfl, rfl⟩

/-- A task that has ended takes no step. -/
theorem running_of_step (h : t.step e = some t') : t.running := by
  by_contra hEnded
  have hPhase : t.phase = .ended := by simpa [running] using hEnded
  cases e <;> simp [step, onSent, onSendFailed, onClosed, onRead, onReadEof, onWrote, hPhase] at h
  split at h <;> simp [onFrame] at h

/-! ## Receiving -/

structure Receives (t : StreamTask) : Prop where
  written : t.socketWritten <+: dataBytes t.consumed
  backlog : t.live → t.socketWritten ++ t.unwritten = dataBytes t.consumed
  peerEnd : t.peerEnded → ∃ f ∈ t.consumed, f.frameType = .endStream
  graceful : t.completion = some .graceful →
    t.socketWritten = dataBytes t.consumed ∧ t.peerEnded ∧ t.localEnded
  reason : ∀ code, t.phase = .sendReset code → t.closeReason ≠ .graceful
  silent : t.live → t.completion = none

/-- A task at work has written, or is writing, all that it consumed. -/
theorem receives_live (hBytes : t.socketWritten ++ t.unwritten = dataBytes t.consumed)
    (hEnd : t.peerEnded → ∃ f ∈ t.consumed, f.frameType = .endStream) (hNone : t.completion = none)
    (hLive : t.live) : t.Receives where
  written := hBytes ▸ prefix_append _ _
  backlog _ := hBytes
  peerEnd := hEnd
  graceful h := by simp [hNone] at h
  reason _ h := by simp [live, h] at hLive
  silent _ := hNone

/-- The ways a task leaves its work, and the head of its loop, keep `Receives`. -/
theorem receives_reset (hWritten : t.socketWritten <+: dataBytes t.consumed)
    (hEnd : t.peerEnded → ∃ f ∈ t.consumed, f.frameType = .endStream) (hNone : t.completion = none)
    (hReason : reason ≠ .graceful) :
    (t.reset code reason).Receives where
  written := hWritten
  backlog h := by simp [reset, live] at h
  peerEnd := hEnd
  graceful h := by simp [reset, hNone] at h
  reason _ _ := hReason
  silent h := by simp [reset, live] at h

theorem receives_close (hWritten : t.socketWritten <+: dataBytes t.consumed)
    (hEnd : t.peerEnded → ∃ f ∈ t.consumed, f.frameType = .endStream)
    (hReason : reason ≠ .graceful) :
    (t.close reason).Receives where
  written := hWritten
  backlog h := by simp [close, finish, live] at h
  peerEnd := hEnd
  graceful h := by
    cases hSide : t.side <;> simp [close, finish, hSide, hReason] at h
  reason _ h := by simp [close, finish] at h
  silent h := by simp [close, finish, live] at h

theorem receives_loopTop (hWritten : t.socketWritten = dataBytes t.consumed)
    (hEnd : t.peerEnded → ∃ f ∈ t.consumed, f.frameType = .endStream)
    (hNone : t.completion = none) :
    t.loopTop.Receives := by
  unfold loopTop
  split_ifs with hBoth
  · rw [Bool.and_eq_true] at hBoth
    exact {
      written := hWritten ▸ prefix_rfl
      backlog := fun h => by simp [finish, live] at h
      peerEnd := hEnd
      graceful := fun _ => ⟨hWritten, hBoth.2, hBoth.1⟩
      reason := fun _ h => by simp [finish] at h
      silent := fun h => by simp [finish, live] at h }
  · exact receives_live (by simpa [unwritten] using hWritten) hEnd hNone rfl

theorem Receives.finish (hInv : t.Receives) (hReason : t.closeReason ≠ .graceful) :
    t.finish.Receives :=
  receives_close hInv.written hInv.peerEnd hReason

theorem Receives.drop (hInv : t.Receives) : t.drop.Receives where
  written := hInv.written
  backlog h := by simp [StreamTask.drop, live] at h
  peerEnd := hInv.peerEnd
  graceful := hInv.graceful
  reason _ h := by simp [StreamTask.drop] at h
  silent h := by simp [StreamTask.drop, live] at h

/-- A task that moves on to another phase without losing bytes. -/
theorem Receives.resume (hInv : t.Receives) (hLive : t.live)
    (hWritten : t'.socketWritten ++ t'.unwritten = t.socketWritten ++ t.unwritten)
    (hConsumed : t'.consumed = t.consumed) (hEnded : t'.peerEnded = t.peerEnded)
    (hNone : t'.completion = t.completion) (hLive' : t'.live) : t'.Receives := by
  refine receives_live ?_ ?_ (hNone.trans (hInv.silent hLive)) hLive'
  · rw [hWritten, hConsumed, hInv.backlog hLive]
  · rw [hConsumed, hEnded]
    exact hInv.peerEnd

theorem Receives.eq_of_idle (hInv : t.Receives) (hLive : t.live) (hIdle : t.unwritten = []) :
    t.socketWritten = dataBytes t.consumed := by
  simpa [hIdle] using hInv.backlog hLive

/-- **Every step keeps `Receives`.** -/
theorem receives_step (hInv : t.Receives) (h : t.step e = some t') : t'.Receives := by
  cases step_move h with
  | read _ _ hPhase | readEof hPhase | connected hPhase =>
    exact hInv.resume (by simp [live, hPhase]) (by simp [unwritten, hPhase]) rfl rfl rfl rfl
  | opened _ hPhase =>
    rcases hPhase with ⟨hPhase, rfl⟩ | ⟨hPhase, rfl⟩
    all_goals
      exact hInv.resume (by simp [live, hPhase]) (by simp [unwritten, hPhase]) rfl rfl rfl rfl
  | sentData _ hPhase | shutdownOk hPhase =>
    have hLive : t.live := by simp [live, hPhase]
    exact receives_loopTop (hInv.eq_of_idle hLive (by simp [unwritten, hPhase]))
      hInv.peerEnd (hInv.silent hLive)
  | recv frame rest _ hInbound hFrame =>
    have hPrefix : t.socketWritten <+: dataBytes (t.consumed ++ [frame]) := by
      rw [dataBytes_append]
      exact hInv.written.trans (prefix_append _ _)
    have hEnd : t.peerEnded → ∃ f ∈ t.consumed ++ [frame], f.frameType = .endStream := by
      intro hEnded
      obtain ⟨f, hf, hType⟩ := hInv.peerEnd hEnded
      exact ⟨f, mem_append_left _ hf, hType⟩
    -- a task receives only when it has nothing left to write
    obtain ⟨hTaking, hEffect⟩ := onFrame_effect hFrame
    obtain ⟨hLive, hIdle⟩ : t.live ∧ t.unwritten = [] := by
      rcases hTaking with hPhase | hPhase | hPhase <;>
        simp [live, unwritten, show t.phase = _ from hPhase]
    have hNone := hInv.silent hLive
    have hBytes : dataBytes (t.consumed ++ [frame]) =
        t.socketWritten ++ if frame.frameType = .data then frame.payload else [] := by
      rw [dataBytes_append, dataBytes_singleton, hInv.eq_of_idle hLive hIdle]
    cases hEffect with
    | opened _ hType =>
      exact receives_live (by simp [unwritten, hBytes, hType]) hEnd hNone rfl
    | closed _ _ hReason => exact receives_close hPrefix hEnd hReason
    | reset => exact receives_reset hPrefix hEnd hNone (by decide)
    | empty _ _ hEmpty => exact receives_loopTop (by simp [hBytes, hEmpty]) hEnd hNone
    | writes _ hType => exact receives_live (by simp [unwritten, hBytes, hType]) hEnd hNone rfl
    | ended _ hType =>
      exact receives_live (by simp [unwritten, hBytes, hType])
        (fun _ => ⟨frame, by simp, hType⟩) hNone rfl
  | written n rest hPhase hAll =>
    have hLive : t.live := by simp [live, hPhase]
    refine receives_loopTop ?_ hInv.peerEnd (hInv.silent hLive)
    have hRest : t.unwritten = rest := by simp [unwritten, hPhase]
    rw [hAll, take_length, ← hRest, hInv.backlog hLive]
  | writing n rest hPhase =>
    refine hInv.resume (by simp [live, hPhase]) ?_ rfl rfl rfl rfl
    simp [unwritten, hPhase]
  | finish _ _ _ hPhase => exact hInv.finish (hInv.reason _ hPhase)
  | drop => exact hInv.drop
  | close _ _ _ _ hReason => exact receives_close hInv.written hInv.peerEnd hReason
  | reset _ _ _ _ _ hLive hReason =>
    exact receives_reset hInv.written hInv.peerEnd (hInv.silent hLive) hReason

/-! ## Sending -/

structure Sends (t : StreamTask) : Prop where
  own : ∀ f ∈ t.produced, f.streamId = t.id ∧ (f.frameType = .data ∨ f.frameType = .endStream)
  small : ∀ f ∈ t.produced, f.payload.length ≤ multiplexedDataPayloadSize
  bytes : dataBytes t.produced = t.socketRead
  unended : t.localEnded = false → ∀ f ∈ t.produced, f.frameType = .data
  ended : t.localEnded → ∃ ds, t.produced = ds ++ [t.endFrame] ∧ ∀ f ∈ ds, f.frameType = .data
  sent : t.sentData <+: t.produced
  pending : t.live → t.sentData ++ t.pendingData = t.produced

theorem endFrame_congr (h : t'.id = t.id) : t'.endFrame = t.endFrame :=
  Frame.ext_fields rfl h rfl

/-- A step that does not read. -/
theorem Sends.unread (hInv : t.Sends) (hId : t'.id = t.id) (hProduced : t'.produced = t.produced)
    (hRead : t'.socketRead = t.socketRead) (hEnded : t'.localEnded = t.localEnded)
    (hSent : t'.sentData <+: t.produced)
    (hPending : t'.live → t'.sentData ++ t'.pendingData = t.produced) : t'.Sends where
  own := by rw [hProduced, hId]; exact hInv.own
  small := by rw [hProduced]; exact hInv.small
  bytes := by rw [hProduced, hRead]; exact hInv.bytes
  unended := by rw [hProduced, hEnded]; exact hInv.unended
  ended := by rw [hProduced, hEnded, endFrame_congr hId]; exact hInv.ended
  sent := hProduced ▸ hSent
  pending h := hProduced ▸ hPending h

/-- A step that neither reads nor sends keeps `Sends`. -/
theorem Sends.keep (hInv : t.Sends) (hId : t'.id = t.id) (hProduced : t'.produced = t.produced)
    (hSent : t'.sentData = t.sentData) (hRead : t'.socketRead = t.socketRead)
    (hEnded : t'.localEnded = t.localEnded)
    (hPending : t'.live → t.live ∧ t'.pendingData = t.pendingData) : t'.Sends := by
  refine hInv.unread hId hProduced hRead hEnded (hSent ▸ hInv.sent) fun h => ?_
  obtain ⟨hLive, hEq⟩ := hPending h
  rw [hSent, hEq]
  exact hInv.pending hLive

theorem Sends.all_sent (hInv : t.Sends) (hPhase : t.phase = .relay) : t.sentData = t.produced := by
  simpa [pendingData, hPhase] using hInv.pending (by simp [live, hPhase])

/-- A frame is taken in while nothing waits for the data queue, and leaves
nothing waiting. -/
theorem onFrame_pending (h : t.onFrame frame = some t') :
    t.live ∧ t.pendingData = [] ∧ t'.pendingData = [] := by
  obtain ⟨hTaking, hEffect⟩ := onFrame_effect h
  have hBefore : t.live ∧ t.pendingData = [] := by
    rcases hTaking with hPhase | hPhase | hPhase <;> simp [live, pendingData, hPhase]
  refine ⟨hBefore.1, hBefore.2, ?_⟩
  cases hEffect with
  | empty =>
    unfold loopTop
    split_ifs <;> rfl
  | _ => rfl

/-- **Every step keeps `Sends`.** -/
theorem sends_step (hInv : t.Sends) (h : t.step e = some t') : t'.Sends := by
  cases step_move h with
  | read _ hLen hPhase hOpen =>
    have hSent := hInv.all_sent hPhase
    exact {
      own := forall_mem_append.mpr
        ⟨hInv.own, forall_mem_singleton.mpr ⟨rfl, .inl rfl⟩⟩
      small := forall_mem_append.mpr ⟨hInv.small, forall_mem_singleton.mpr hLen⟩
      bytes := by
        rw [dataBytes_append, hInv.bytes, dataBytes_singleton]
        rfl
      unended := fun _ => forall_mem_append.mpr
        ⟨hInv.unended hOpen, forall_mem_singleton.mpr rfl⟩
      ended := fun hEnded => by simp [hOpen] at hEnded
      sent := hSent ▸ prefix_append _ _
      pending := fun _ => by rw [hSent]; rfl }
  | readEof hPhase hOpen =>
    have hSent := hInv.all_sent hPhase
    exact {
      own := forall_mem_append.mpr
        ⟨hInv.own, forall_mem_singleton.mpr ⟨rfl, .inr rfl⟩⟩
      small := forall_mem_append.mpr
        ⟨hInv.small, forall_mem_singleton.mpr (Nat.zero_le _)⟩
      bytes := by
        rw [dataBytes_append, hInv.bytes, dataBytes_singleton]
        exact append_nil _
      unended := fun hUnended => by simp at hUnended
      ended := fun _ => ⟨t.produced, rfl, hInv.unended hOpen⟩
      sent := hSent ▸ prefix_append _ _
      pending := fun _ => by rw [hSent]; rfl }
  | sentData frame hPhase =>
    have hAll : t.sentData ++ [frame] = t.produced := by
      simpa [pendingData, hPhase] using hInv.pending (by simp [live, hPhase])
    have hSame := sameHistory_loopTop { t with sentData := t.sentData ++ [frame] }
    refine hInv.unread hSame.id hSame.produced hSame.socketRead hSame.localEnded ?_ fun hLive => ?_
    · rw [hSame.sentData, hAll]
    · rw [hSame.sentData, pendingData, loopTop_live hLive, append_nil, hAll]
  | opened _ hPhase =>
    refine hInv.keep rfl rfl rfl rfl rfl fun _ => ?_
    rcases hPhase with ⟨hPhase, rfl⟩ | ⟨hPhase, rfl⟩ <;> simp [live, pendingData, hPhase]
  | recv _ _ _ _ hFrame =>
    have hSame := sameHistory_onFrame hFrame
    obtain ⟨hLive, hNone, hNone'⟩ := onFrame_pending hFrame
    exact hInv.keep hSame.id hSame.produced hSame.sentData hSame.socketRead hSame.localEnded
      fun _ => ⟨hLive, hNone'.trans hNone.symm⟩
  | connected hPhase | writing _ _ hPhase =>
    exact hInv.keep rfl rfl rfl rfl rfl fun _ => by simp [live, pendingData, hPhase]
  | written _ _ hPhase | shutdownOk hPhase =>
    have hSame := sameHistory_loopTop
    refine hInv.keep (hSame _).id (hSame _).produced (hSame _).sentData (hSame _).socketRead
      (hSame _).localEnded fun hLive => ⟨by simp [live, hPhase], ?_⟩
    rw [pendingData, loopTop_live hLive, pendingData, hPhase]
  | finish | drop | close | reset => exact hInv.keep rfl rfl rfl rfl rfl nofun

/-- Once `END_STREAM` was accepted by the data queue, so was everything read. -/
theorem Sends.sentData_of_end (hInv : t.Sends) (hEnd : ∃ f ∈ t.sentData, f.frameType = .endStream) :
    t.localEnded ∧ t.sentData = t.produced := by
  obtain ⟨f, hf, hType⟩ := hEnd
  have hMem : f ∈ t.produced := hInv.sent.subset hf
  have hEnded : t.localEnded = true := by
    by_contra hNot
    have := hInv.unended (by simpa using hNot) f hMem
    simp [hType] at this
  obtain ⟨_, hProduced, hData⟩ := hInv.ended hEnded
  refine ⟨hEnded, ?_⟩
  -- A proper prefix would lie inside the DATA frames before the END.
  rcases prefix_concat_iff.mp (hProduced ▸ hInv.sent) with hEq | hPre
  · rw [hEq, hProduced]
  · have := hData f (hPre.subset hf)
    simp [hType] at this

/-! ## Opening -/

/-- The peer acknowledged the open with `OPEN_STREAM`. -/
def Acknowledged (t : StreamTask) : Prop := ∃ f ∈ t.consumed, f.frameType = .openStream

structure Opens (t : StreamTask) : Prop where
  relaying : t.relaying → t.acked ∧ (t.side = .edge → t.Acknowledged)
  produced : t.produced ≠ [] → t.acked ∧ (t.side = .edge → t.Acknowledged)
  awaitOpen : t.phase = .awaitOpen → t.acked
  connecting : t.phase = .connecting ∨ t.phase = .sendAck → t.side = .agent
  unsent : t.phase = .sendOpen ∨ t.phase = .connecting ∨ t.phase = .sendAck → t.acked = false

/-- After a frame the task relays only if it did before, or if the frame was the
acknowledgement it waited for. -/
theorem onFrame_relaying (h : t.onFrame frame = some t') (hRelay : t'.relaying) :
    t.phase = .relay ∨ t.phase = .awaitOpen ∧ frame.frameType = .openStream := by
  cases (onFrame_effect h).2 with
  | opened hPhase hType => exact .inr ⟨hPhase, hType⟩
  | closed => simp [close, finish, relaying] at hRelay
  | reset => simp [StreamTask.reset, relaying] at hRelay
  | empty hPhase | writes hPhase | ended hPhase => exact .inl hPhase

/-- A frame never brings a task back to its opening phases. -/
theorem onFrame_opened (h : t.onFrame frame = some t') : t'.relaying ∨ t'.live = false := by
  cases (onFrame_effect h).2 with
  | opened | writes | ended => exact .inl rfl
  | closed | reset => exact .inr rfl
  | empty =>
    unfold loopTop
    split_ifs <;> simp [relaying, finish, live]

theorem relaying_or_not_live (h : t.relaying ∨ t.live = false) :
    t.phase ≠ .sendOpen ∧ t.phase ≠ .awaitOpen ∧ t.phase ≠ .connecting ∧ t.phase ≠ .sendAck := by
  refine ⟨?_, ?_, ?_, ?_⟩ <;> intro hPhase <;> simp [relaying, live, hPhase] at h

/-- `Opens` for a state past the opening phases. -/
theorem opens_of_past (hPast : t.relaying ∨ t.live = false)
    (hOpen : t.relaying ∨ t.produced ≠ [] → t.acked ∧ (t.side = .edge → t.Acknowledged)) :
    t.Opens where
  relaying h := hOpen (.inl h)
  produced h := hOpen (.inr h)
  awaitOpen h := absurd h (relaying_or_not_live hPast).2.1
  connecting h := by
    obtain ⟨-, -, hConnect, hAck⟩ := relaying_or_not_live hPast
    exact absurd h (not_or.mpr ⟨hConnect, hAck⟩)
  unsent h := by
    obtain ⟨hOpen, -, hConnect, hAck⟩ := relaying_or_not_live hPast
    exact absurd h (not_or.mpr ⟨hOpen, not_or.mpr ⟨hConnect, hAck⟩⟩)

/-- **Every step keeps `Opens`.** -/
theorem opens_step (hInv : t.Opens) (h : t.step e = some t') : t'.Opens := by
  -- the head of the loop is reached from phases in which the task relays
  have hTop : ∀ u : StreamTask, SameHistory u u.loopTop → t.relaying → u.acked = t.acked →
      u.side = t.side → u.consumed = t.consumed → u.loopTop.Opens := by
    intro u hSame hRelay hAcked hSide hConsumed
    refine opens_of_past ?_ fun _ => ?_
    · cases hLive : u.loopTop.live with
      | false => exact .inr rfl
      | true => exact .inl (by simp [relaying, loopTop_live hLive])
    · rw [hSame.acked, hSame.side, Acknowledged, hSame.consumed, hAcked, hSide, hConsumed]
      exact hInv.relaying hRelay
  cases step_move h with
  | read _ _ hPhase | readEof hPhase | writing _ _ hPhase =>
    exact opens_of_past (.inl rfl) fun _ => hInv.relaying (by simp [relaying, hPhase])
  | sentData _ hPhase | written _ _ hPhase | shutdownOk hPhase =>
    exact hTop _ (sameHistory_loopTop _) (by simp [relaying, hPhase]) rfl rfl rfl
  | opened _ hPhase =>
    rcases hPhase with ⟨hPhase, rfl⟩ | ⟨hPhase, rfl⟩
    · exact {
        relaying := fun hRelay => by simp [StreamTask.relaying] at hRelay
        produced := fun hProduced => ⟨rfl, (hInv.produced hProduced).2⟩
        awaitOpen := fun _ => rfl
        connecting := fun hConnect => by simp at hConnect
        unsent := fun hUnsent => by simp at hUnsent }
    · refine opens_of_past (.inl rfl) fun _ => ⟨rfl, fun hEdge => ?_⟩
      have hAgent := hInv.connecting (.inr hPhase)
      simp [hAgent] at hEdge
  | connected hPhase =>
    exact {
      relaying := fun hRelay => by simp [StreamTask.relaying] at hRelay
      produced := hInv.produced
      awaitOpen := fun hAwait => by simp at hAwait
      connecting := fun _ => hInv.connecting (.inl hPhase)
      unsent := fun _ => hInv.unsent (.inr (.inl hPhase)) }
  | recv frame _ t' _ hFrame =>
    have hSame := sameHistory_onFrame hFrame
    have hMono : t.Acknowledged → t'.Acknowledged := by
      rintro ⟨f, hf, hType⟩
      exact ⟨f, by rw [hSame.consumed]; exact mem_append_left _ hf, hType⟩
    refine opens_of_past (onFrame_opened hFrame) fun hCase => ?_
    rw [hSame.acked, hSame.side]
    rcases hCase with hRelay | hProduced
    · rcases onFrame_relaying hFrame hRelay with hPhase | ⟨hPhase, hType⟩
      · obtain ⟨hAcked, hOpen⟩ := hInv.relaying (by simp [relaying, show t.phase = _ from hPhase])
        exact ⟨hAcked, fun hEdge => hMono (hOpen hEdge)⟩
      · refine ⟨hInv.awaitOpen hPhase, fun _ => ⟨frame, ?_, hType⟩⟩
        rw [hSame.consumed]
        exact mem_append_right _ (mem_singleton_self frame)
    · obtain ⟨hAcked, hOpen⟩ := hInv.produced (hSame.produced ▸ hProduced)
      exact ⟨hAcked, fun hEdge => hMono (hOpen hEdge)⟩
  | finish | drop | close | reset =>
    refine opens_of_past (.inr rfl) fun hCase => hInv.produced (hCase.resolve_left ?_)
    exact Bool.false_ne_true

/-! ## What a task takes from its queue -/

/-- The frames that reached a task stay, unless the task ends and drops the rest. -/
theorem intake_of_step (h : t.step e = some t') :
    t'.consumed ++ t'.inbound = t.consumed ++ t.inbound ∨ t' = t.drop := by
  cases step_move h with
  | sentData | written | shutdownOk =>
    have hSame := sameHistory_loopTop
    exact .inl (by rw [(hSame _).consumed, (hSame _).inbound])
  | recv _ _ _ hInbound hFrame =>
    have hSame := sameHistory_onFrame hFrame
    exact .inl (by rw [hSame.consumed, hSame.inbound, hInbound]; simp)
  | drop => exact .inr rfl
  | _ => exact .inl rfl

/-! ## What a task hands to its queues -/

theorem sentData_eq_of_step (hEvent : e ≠ .sent) (h : t.step e = some t') :
    t'.sentData = t.sentData ∧ t'.acked = t.acked := by
  cases step_move h with
  | sentData | opened => exact absurd rfl hEvent
  | written | shutdownOk =>
    have hSame := sameHistory_loopTop
    exact ⟨(hSame _).sentData, (hSame _).acked⟩
  | recv _ _ _ _ hFrame =>
    have hSame := sameHistory_onFrame hFrame
    exact ⟨hSame.sentData, hSame.acked⟩
  | _ => exact ⟨rfl, rfl⟩

/-- A control frame of a task is its `OPEN_STREAM`, sent once, or a reset. -/
theorem control_sent (hOpens : t.Opens) (h : t.step .sent = some t')
    (hSend : t.pendingSend = some (.control frame)) :
    t'.sentData = t.sentData ∧ frame.streamId = t.id ∧
      (frame.frameType = .openStream ∧ t.acked = false ∧ t'.acked = true ∨
        frame.frameType = .resetStream ∧ t'.acked = t.acked) := by
  simp only [step, onSent] at h
  split at h <;> rename_i hPhase <;> simp [pendingSend, hPhase] at hSend <;> cases h <;>
    subst hSend
  · exact ⟨rfl, rfl, .inl ⟨rfl, hOpens.unsent (.inl hPhase), rfl⟩⟩
  · exact ⟨rfl, rfl, .inl ⟨rfl, hOpens.unsent (.inr (.inr hPhase)), rfl⟩⟩
  · exact ⟨rfl, rfl, .inr ⟨rfl, rfl⟩⟩

/-- A data frame of a task belongs to its stream and follows its `OPEN_STREAM`. -/
theorem data_sent (hOpens : t.Opens) (hSends : t.Sends) (h : t.step .sent = some t')
    (hSend : t.pendingSend = some (.data frame)) :
    t'.sentData = t.sentData ++ [frame] ∧ t'.acked = t.acked ∧ t.acked ∧
      (t.side = .edge → t.Acknowledged) ∧ frame.streamId = t.id ∧
      (frame.frameType = .data ∨ frame.frameType = .endStream) := by
  simp only [step, onSent] at h
  split at h <;> rename_i hPhase <;> simp [pendingSend, hPhase] at hSend
  cases h
  subst hSend
  rename_i frame
  have hSame := sameHistory_loopTop { t with sentData := t.sentData ++ [frame] }
  obtain ⟨hAcked, hOpen⟩ := hOpens.relaying (by simp [relaying, hPhase])
  have hPending := hSends.pending (by simp [live, hPhase])
  have hMem : frame ∈ t.produced := by
    rw [← hPending]
    simp [pendingData, hPhase]
  exact ⟨hSame.sentData, hSame.acked, hAcked, hOpen, (hSends.own frame hMem).1,
    (hSends.own frame hMem).2⟩

theorem closed_sent (h : t.step .sent = some t') (hSend : t.pendingSend = some .closed) :
    t'.sentData = t.sentData ∧ t'.acked = t.acked := by
  simp only [step, onSent] at h
  split at h <;> rename_i hPhase <;> simp [pendingSend, hPhase] at hSend
  cases h
  exact ⟨rfl, rfl⟩

end TunnelProxy.Mux.StreamTask
