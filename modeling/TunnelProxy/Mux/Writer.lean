import TunnelProxy.Common.FairQueue
import TunnelProxy.Protocol.Codec

/-!
# The writer actor and its two queues

Every frame of a session leaves through one writer. Control frames
(`OPEN_STREAM`, `RESET_STREAM`, heartbeats) and data frames (`DATA`,
`END_STREAM`) reach it on two bounded queues; data frames are first moved to a
fair queue keyed by stream. `Pipeline` is the two queues with the state of
`writer_actor`, which is the same on both sides, and `turn` is one step of its
loop between two points where another task can run.

The pipeline records what each queue accepted and, in `started`, the frames
whose encoding the writer began to write, in wire order.

* `Pipeline.Fifo` — control frames are written in the order they were accepted,
  and so are the data frames of each stream; nothing is written twice.
* `Pipeline.Framed` — the bytes written are a prefix of the encodings of the
  started frames.
* `Pipeline.step_effect` — what a step does; `Pipeline.fifo_step` — every step keeps the order.
-/

namespace TunnelProxy.Mux

open Protocol Common List BoundedFairQueue

/-- `MAX_CONTROL_FRAME_BURST` -/
def maxControlFrameBurst : Nat := 8

/-- A frame on a queue. `origin` records the stream task that sent it, by its
index; frames of the dispatch loop have none. -/
structure Outbound where
  origin : Option Nat
  frame : Frame
deriving DecidableEq

namespace Outbound

def streamId (o : Outbound) : StreamId := o.frame.streamId

/-- The two frame types that travel on the data queue. -/
def isData (o : Outbound) : Bool :=
  o.frame.frameType = .data || o.frame.frameType = .endStream

/-- A data frame of one stream. -/
def isDataOf (s : StreamId) (o : Outbound) : Bool := o.isData && o.streamId = s

end Outbound

/-- Where `writer_actor` is in its loop. -/
inductive WriterPhase where
  /-- The inner loop that moves data frames to the fair queue. -/
  | fill
  /-- The `try_recv` on the control queue. -/
  | control
  /-- The pop of the fair queue. -/
  | data
  /-- The `select!`: the control queue is polled first, -/
  | select
  /-- then the data queue. -/
  | selectData
  /-- `encode` with `rest` still to be written; a data frame keeps its permit. -/
  | writing (rest : List UInt8) (isData : Bool)
  /-- `writer.shutdown()` -/
  | shutdown
  | done (ok : Bool)
deriving DecidableEq

structure Pipeline where
  controlCapacity : Nat
  dataCapacity : Nat
  control : List Outbound
  data : List Outbound
  controlOpen : Bool
  dataOpen : Bool
  controlBurst : Nat
  scheduled : BoundedFairQueue StreamId Outbound
  phase : WriterPhase
  /-- Bytes handed to the transport that the peer has not been given yet. -/
  outgoing : List UInt8
  -- History.
  sentControl : List Outbound
  sentData : List Outbound
  started : List Outbound
  bytesOut : List UInt8

namespace Pipeline

def new (controlCapacity dataCapacity : Nat) : Pipeline where
  controlCapacity := controlCapacity
  dataCapacity := dataCapacity
  control := []
  data := []
  controlOpen := true
  dataOpen := true
  controlBurst := 0
  scheduled := .new dataCapacity
  phase := .fill
  outgoing := []
  sentControl := []
  sentData := []
  started := []
  bytesOut := []

def alive (p : Pipeline) : Bool :=
  match p.phase with
  | .done _ => false
  | _ => true

/-! ## Senders -/

/-- Queued, scheduled and in-flight data frames hold the admission permits. -/
def permitsUsed (p : Pipeline) : Nat :=
  p.data.length + p.scheduled.len +
    match p.phase with
    | .writing _ true => 1
    | _ => 0

def pushControl (p : Pipeline) (o : Outbound) : Option Pipeline :=
  if p.alive ∧ p.control.length < p.controlCapacity then
    some { p with control := p.control ++ [o], sentControl := p.sentControl ++ [o] }
  else none

def pushData (p : Pipeline) (o : Outbound) : Option Pipeline :=
  if p.alive ∧ p.permitsUsed < p.dataCapacity then
    some { p with data := p.data ++ [o], sentData := p.sentData ++ [o] }
  else none

/-! ## The writer -/

/-- The writer ends: its receivers are dropped with what they hold. -/
def stop (p : Pipeline) (ok : Bool) : Pipeline :=
  { p with
    control := []
    data := []
    scheduled := .new p.dataCapacity
    phase := .done ok }

/-- The condition of the outer loop. -/
def loopTop (p : Pipeline) : Pipeline :=
  if p.controlOpen || p.dataOpen || !p.scheduled.isEmpty then { p with phase := .fill }
  else { p with phase := .shutdown }

def startWrite (p : Pipeline) (o : Outbound) (isData : Bool) : Pipeline :=
  match FrameEncoder.encode o.frame with
  | .ok bytes => { p with phase := .writing bytes isData, started := p.started ++ [o] }
  | .error _ => p.stop false

/-- Moves the head of the data queue to the fair queue; a full fair queue is an
invariant error. -/
def schedule (p : Pipeline) (o : Outbound) (rest : List Outbound) : Pipeline :=
  match p.scheduled.push o.streamId o with
  | .ok scheduled => { p with data := rest, scheduled }
  | .error _ => p.stop false

def turnFill (p : Pipeline) (disconnected : Bool) : Pipeline :=
  if p.dataOpen && p.scheduled.len < p.dataCapacity then
    match p.data with
    | o :: rest => p.schedule o rest
    | [] => if disconnected then { p with dataOpen := false } else { p with phase := .control }
  else { p with phase := .control }

def turnControl (p : Pipeline) (disconnected : Bool) : Pipeline :=
  if p.controlOpen && (p.controlBurst < maxControlFrameBurst || p.scheduled.isEmpty) then
    match p.control with
    | o :: rest => startWrite { p with control := rest } o false
    | [] =>
      if disconnected then { p with controlOpen := false, phase := .data }
      else { p with phase := .data }
  else { p with phase := .data }

def turnData (p : Pipeline) : Pipeline :=
  match p.scheduled.pop with
  | some (o, scheduled) => startWrite { p with scheduled } o true
  | none =>
    if !p.controlOpen && !p.dataOpen then { p with phase := .shutdown }
    else { p with phase := .select }

def turnSelect (p : Pipeline) (disconnected : Bool) : Pipeline :=
  if p.controlOpen then
    match p.control with
    | o :: rest => startWrite { p with control := rest } o false
    | [] =>
      if disconnected then loopTop { p with controlOpen := false }
      else { p with phase := .selectData }
  else { p with phase := .selectData }

/-- Back to `select` when neither queue is ready. -/
def turnSelectData (p : Pipeline) (disconnected : Bool) : Pipeline :=
  if p.dataOpen then
    match p.data with
    | o :: rest =>
      match p.scheduled.push o.streamId o with
      | .ok scheduled => loopTop { p with data := rest, scheduled }
      | .error _ => p.stop false
    | [] =>
      if disconnected then loopTop { p with dataOpen := false } else { p with phase := .select }
  else { p with phase := .select }

/-- One step of the loop that is not transport I/O. `disconnected` says that no
sender of the queues is left. -/
def turn (p : Pipeline) (disconnected : Bool) : Option Pipeline :=
  match p.phase with
  | .fill => some (p.turnFill disconnected)
  | .control => some (p.turnControl disconnected)
  | .data => some p.turnData
  | .select => some (p.turnSelect disconnected)
  | .selectData => some (p.turnSelectData disconnected)
  | _ => none

/-- The burst counts control frames since the last data frame. -/
def written (p : Pipeline) (isData : Bool) : Pipeline :=
  loopTop { p with controlBurst := if isData then 0 else p.controlBurst + 1 }

/-- The transport accepted the next `n` bytes of the frame being written. -/
def wrote (p : Pipeline) (n : Nat) : Option Pipeline :=
  match p.phase with
  | .writing rest isData =>
    if 0 < n ∧ n ≤ rest.length then
      let p := { p with
        outgoing := p.outgoing ++ rest.take n
        bytesOut := p.bytesOut ++ rest.take n }
      some (if n = rest.length then p.written isData
        else { p with phase := .writing (rest.drop n) isData })
    else none
  | _ => none

/-- A transport error while writing or shutting down. -/
def failed (p : Pipeline) : Option Pipeline :=
  match p.phase with
  | .writing _ _ | .shutdown => some (p.stop false)
  | _ => none

def finished (p : Pipeline) : Option Pipeline :=
  match p.phase with
  | .shutdown => some (p.stop true)
  | _ => none

/-- The transport carries the next `n` bytes away. -/
def depart (p : Pipeline) (n : Nat) : Pipeline := { p with outgoing := p.outgoing.drop n }

inductive WriterAction where
  | turn
  | wrote (n : Nat)
  | failed
  | finished
deriving DecidableEq

def step (p : Pipeline) (disconnected : Bool) : WriterAction → Option Pipeline
  | .turn => p.turn disconnected
  | .wrote n => p.wrote n
  | .failed => p.failed
  | .finished => p.finished

/-! ## What a step does -/

/-- Two states with the same queues and histories. -/
structure SameQueues (p p' : Pipeline) : Prop where
  control : p'.control = p.control
  data : p'.data = p.data
  scheduled : p'.scheduled = p.scheduled
  outgoing : p'.outgoing = p.outgoing
  sentControl : p'.sentControl = p.sentControl
  sentData : p'.sentData = p.sentData
  started : p'.started = p.started
  bytesOut : p'.bytesOut = p.bytesOut
  controlCapacity : p'.controlCapacity = p.controlCapacity
  dataCapacity : p'.dataCapacity = p.dataCapacity

/-- No frame is being written and the writer has not ended. -/
def between (p : Pipeline) : Bool :=
  match p.phase with
  | .writing _ _ | .done _ => false
  | _ => true

/-- The writer comes to the pop of the fair queue after it found the control
queue empty or closed, or after a full burst with data waiting. -/
def MayPop (p : Pipeline) : Prop :=
  p.control = [] ∨ p.controlOpen = false ∨
    maxControlFrameBurst ≤ p.controlBurst ∧ p.scheduled.isEmpty = false

/-- The effect of one step of the writer. -/
inductive Effect (p : Pipeline) (disconnected : Bool) : Pipeline → Prop where
  | startControl (o : Outbound) (rest : List Outbound) (hControl : p.control = o :: rest)
      (hBetween : p.between) :
      Effect p disconnected { p with
        control := rest
        phase := .writing o.frame.wire false
        started := p.started ++ [o] }
  | startData (o : Outbound) (scheduled : BoundedFairQueue StreamId Outbound)
      (hPop : p.scheduled.pop = some (o, scheduled)) (hPhase : p.phase = .data) :
      Effect p disconnected { p with
        scheduled := scheduled
        phase := .writing o.frame.wire true
        started := p.started ++ [o] }
  | schedule (o : Outbound) (rest : List Outbound)
      (scheduled : BoundedFairQueue StreamId Outbound) (hData : p.data = o :: rest)
      (hPush : p.scheduled.push o.streamId o = .ok scheduled)
      (next : WriterPhase) (hNext : next = .fill ∨ next = .shutdown) (hBetween : p.between) :
      Effect p disconnected { p with data := rest, scheduled := scheduled, phase := next }
  | move (p' : Pipeline) (hSame : SameQueues p p') (hBetween : p.between)
      (hBetween' : p'.between) (hBurst : p'.controlBurst = p.controlBurst)
      (hPop : p'.phase = .data → p.phase = .control ∧ p.MayPop)
      (hOpen : p'.controlOpen = p.controlOpen ∨
        p'.controlOpen = false ∧ p.control = [] ∧ disconnected) :
      Effect p disconnected p'
  | wrote (n : Nat) (rest : List UInt8) (isData : Bool)
      (hPhase : p.phase = .writing rest isData) (hPos : 0 < n) (hLen : n ≤ rest.length)
      (p' : Pipeline)
      (hSame : SameQueues { p with
        outgoing := p.outgoing ++ rest.take n, bytesOut := p.bytesOut ++ rest.take n } p')
      (hOpen : p'.controlOpen = p.controlOpen)
      (hNext : n < rest.length ∧ p'.phase = .writing (rest.drop n) isData ∨
        n = rest.length ∧ (p'.phase = .fill ∨ p'.phase = .shutdown)) :
      Effect p disconnected p'
  | stop (ok : Bool) (hAlive : p.alive) : Effect p disconnected (p.stop ok)

theorem startWrite_eq (p : Pipeline) (o : Outbound) (isData : Bool) : p.startWrite o isData =
      { p with phase := .writing o.frame.wire isData, started := p.started ++ [o] } := by
  simp [startWrite]

theorem loopTop_eq (p : Pipeline) :
    ∃ next, (next = .fill ∨ next = .shutdown) ∧ p.loopTop = { p with phase := next } := by
  unfold loopTop
  split_ifs
  · exact ⟨_, .inl rfl, rfl⟩
  · exact ⟨_, .inr rfl, rfl⟩

theorem phase_loopTop (p : Pipeline) : p.loopTop.phase = .fill ∨ p.loopTop.phase = .shutdown := by
  obtain ⟨_, hNext, hEq⟩ := p.loopTop_eq
  rw [hEq]
  exact hNext

theorem between_loopTop (p : Pipeline) : p.loopTop.between := by
  rcases phase_loopTop p with h | h <;> simp [between, h]

variable {disconnected : Bool} {a : WriterAction} {p' : Pipeline} {o : Outbound}

variable {p : Pipeline}

/-- A step that only moves on to another phase. -/
theorem Effect.goto (next : WriterPhase) (hBetween : p.between)
    (hNext : ({ p with phase := next } : Pipeline).between)
    (hPop : next = .data → p.phase = .control ∧ p.MayPop) :
    Effect p disconnected { p with phase := next } :=
  .move _ (by constructor <;> rfl) hBetween hNext rfl hPop (.inl rfl)

theorem alive_of_between (h : p.between) : p.alive := by
  unfold between at h
  unfold alive
  cases hPhase : p.phase <;> simp [hPhase] at h ⊢

/-- A step that closes one of the queues and goes back to the head of the loop. -/
theorem Effect.reloop {q : Pipeline} (hBetween : p.between) (hSame : SameQueues p q)
    (hBurst : q.controlBurst = p.controlBurst) (hOpen : q.controlOpen = p.controlOpen ∨
      q.controlOpen = false ∧ p.control = [] ∧ disconnected) : Effect p disconnected q.loopTop := by
  obtain ⟨next, hNext, hEq⟩ := q.loopTop_eq
  rw [hEq]
  refine .move _ { hSame with } hBetween ?_ hBurst ?_ hOpen
  · rcases hNext with rfl | rfl <;> rfl
  · rintro rfl
    rcases hNext with hNext | hNext <;> cases hNext

/-- `turn`, where the two queues lose their senders independently. -/
def turnWith (p : Pipeline) (controlGone dataGone : Bool) : Option Pipeline :=
  match p.phase with
  | .fill => some (p.turnFill dataGone)
  | .control => some (p.turnControl controlGone)
  | .data => some p.turnData
  | .select => some (p.turnSelect controlGone)
  | .selectData => some (p.turnSelectData dataGone)
  | _ => none

def stepWith (p : Pipeline) (controlGone dataGone : Bool) : WriterAction → Option Pipeline
  | .turn => p.turnWith controlGone dataGone
  | .wrote n => p.wrote n
  | .failed => p.failed
  | .finished => p.finished

/-- A turn, case by case: what it finds and what it leaves. -/
inductive Turned (p : Pipeline) (controlGone dataGone : Bool) : Pipeline → Prop where
  | takesControl (o : Outbound) (rest : List Outbound) (hControl : p.control = o :: rest)
      (hOpen : p.controlOpen = true) (hPhase : p.phase = .select ∨ p.phase = .control ∧
        (p.controlBurst < maxControlFrameBurst ∨ p.scheduled.len = 0)) :
      Turned p controlGone dataGone { p with
        control := rest
        phase := .writing o.frame.wire false
        started := p.started ++ [o] }
  | takesData (o : Outbound) (scheduled : BoundedFairQueue StreamId Outbound)
      (hPop : p.scheduled.pop = some (o, scheduled)) (hPhase : p.phase = .data) :
      Turned p controlGone dataGone { p with
        scheduled
        phase := .writing o.frame.wire true
        started := p.started ++ [o] }
  | schedules (o : Outbound) (rest : List Outbound)
      (scheduled : BoundedFairQueue StreamId Outbound) (hData : p.data = o :: rest)
      (hOpen : p.dataOpen = true) (hPush : p.scheduled.push o.streamId o = .ok scheduled)
      (p' : Pipeline) (hNext : p.phase = .fill ∧ p' = { p with data := rest, scheduled } ∨
        p.phase = .selectData ∧ p' = loopTop { p with data := rest, scheduled }) :
      Turned p controlGone dataGone p'
  | overflows (o : Outbound) (rest : List Outbound) (hData : p.data = o :: rest)
      (hPush : ∃ error, p.scheduled.push o.streamId o = .error error) :
      Turned p controlGone dataGone (p.stop false)
  | closesControl (hControl : p.control = []) (hOpen : p.controlOpen = true)
      (hGone : controlGone = true) (p' : Pipeline)
      (hNext : p.phase = .control ∧ p' = { p with controlOpen := false, phase := .data } ∨
        p.phase = .select ∧ p' = loopTop { p with controlOpen := false }) :
      Turned p controlGone dataGone p'
  | closesData (hData : p.data = []) (hOpen : p.dataOpen = true) (hGone : dataGone = true)
      (p' : Pipeline) (hNext : p.phase = .fill ∧ p' = { p with dataOpen := false } ∨
        p.phase = .selectData ∧ p' = loopTop { p with dataOpen := false }) :
      Turned p controlGone dataGone p'
  | ends (hPop : p.scheduled.pop = none) (hControl : p.controlOpen = false)
      (hData : p.dataOpen = false) (hPhase : p.phase = .data) :
      Turned p controlGone dataGone { p with phase := .shutdown }
  | filled (hPhase : p.phase = .fill) : Turned p controlGone dataGone { p with phase := .control }
  | passes (hPhase : p.phase = .control) (hPop : p.MayPop) :
      Turned p controlGone dataGone { p with phase := .data }
  | waits (hPop : p.scheduled.pop = none) (hOpen : p.controlOpen = true ∨ p.dataOpen = true)
      (hPhase : p.phase = .data) : Turned p controlGone dataGone { p with phase := .select }
  | waitsData (hEmpty : p.controlOpen = true → p.control = [] ∧ controlGone = false)
      (hPhase : p.phase = .select) :
      Turned p controlGone dataGone { p with phase := .selectData }
  | waitsAgain (hEmpty : p.dataOpen = true → p.data = [] ∧ dataGone = false)
      (hPhase : p.phase = .selectData) :
      Turned p controlGone dataGone { p with phase := .select }

section

variable {controlGone dataGone : Bool}

theorem turned_fill (hPhase : p.phase = .fill) :
    Turned p controlGone dataGone (p.turnFill dataGone) := by
  unfold turnFill
  split
  · rename_i hOpen
    simp only [Bool.and_eq_true] at hOpen
    split
    · rename_i o rest hData
      unfold schedule
      split
      · rename_i scheduled hPush
        exact .schedules o rest scheduled hData hOpen.1 hPush _ (.inl ⟨hPhase, rfl⟩)
      · rename_i hPush
        exact .overflows o rest hData ⟨_, hPush⟩
    · rename_i hData
      split
      · rename_i hGone
        exact .closesData hData hOpen.1 hGone _ (.inl ⟨hPhase, rfl⟩)
      · exact .filled hPhase
  · exact .filled hPhase

theorem turned_control (hPhase : p.phase = .control) :
    Turned p controlGone dataGone (p.turnControl controlGone) := by
  unfold turnControl
  split
  · rename_i hTry
    simp only [Bool.and_eq_true, Bool.or_eq_true, decide_eq_true_eq] at hTry
    split
    · rename_i o rest hControl
      rw [startWrite_eq]
      exact .takesControl o rest hControl hTry.1
        (.inr ⟨hPhase, hTry.2.imp id fun hEmpty => of_decide_eq_true hEmpty⟩)
    · rename_i hControl
      split
      · rename_i hGone
        exact .closesControl hControl hTry.1 hGone _ (.inl ⟨hPhase, rfl⟩)
      · exact .passes hPhase (.inl hControl)
  · rename_i hTry
    refine .passes hPhase (.inr ?_)
    simp only [Bool.and_eq_true, Bool.or_eq_true, decide_eq_true_eq, not_and, not_or] at hTry
    by_cases hOpen : p.controlOpen
    · obtain ⟨hBurst, hEmpty⟩ := hTry hOpen
      exact .inr ⟨Nat.le_of_not_lt hBurst, by simpa using hEmpty⟩
    · exact .inl (by simpa using hOpen)

theorem turned_data (hPhase : p.phase = .data) : Turned p controlGone dataGone p.turnData := by
  unfold turnData
  split
  · rename_i o scheduled hPop
    rw [startWrite_eq]
    exact .takesData o scheduled hPop hPhase
  · rename_i hPop
    split
    · rename_i hClosed
      simp only [Bool.and_eq_true, Bool.not_eq_true'] at hClosed
      exact .ends hPop hClosed.1 hClosed.2 hPhase
    · rename_i hOpen
      refine .waits hPop ?_ hPhase
      cases hControl : p.controlOpen with
      | true => exact .inl rfl
      | false => exact .inr (by simpa [hControl] using hOpen)

theorem turned_select (hPhase : p.phase = .select) :
    Turned p controlGone dataGone (p.turnSelect controlGone) := by
  unfold turnSelect
  split
  · rename_i hOpen
    split
    · rename_i o rest hControl
      rw [startWrite_eq]
      exact .takesControl o rest hControl hOpen (.inl hPhase)
    · rename_i hControl
      split
      · rename_i hGone
        exact .closesControl hControl hOpen hGone _ (.inr ⟨hPhase, rfl⟩)
      · rename_i hGone
        exact .waitsData (fun _ => ⟨hControl, by simpa using hGone⟩) hPhase
  · rename_i hClosed
    exact .waitsData (fun hOpen => absurd hOpen hClosed) hPhase

theorem turned_selectData (hPhase : p.phase = .selectData) :
    Turned p controlGone dataGone (p.turnSelectData dataGone) := by
  unfold turnSelectData
  split
  · rename_i hOpen
    split
    · rename_i o rest hData
      split
      · rename_i scheduled hPush
        exact .schedules o rest scheduled hData hOpen hPush _ (.inr ⟨hPhase, rfl⟩)
      · rename_i hPush
        exact .overflows o rest hData ⟨_, hPush⟩
    · rename_i hData
      split
      · rename_i hGone
        exact .closesData hData hOpen hGone _ (.inr ⟨hPhase, rfl⟩)
      · rename_i hGone
        exact .waitsAgain (fun _ => ⟨hData, by simpa using hGone⟩) hPhase
  · rename_i hClosed
    exact .waitsAgain (fun hOpen => absurd hOpen hClosed) hPhase

/-- **Inversion of a turn.** -/
theorem turnWith_turned (h : p.turnWith controlGone dataGone = some p') :
    Turned p controlGone dataGone p' ∧ p.between := by
  unfold turnWith at h
  split at h <;> rename_i hPhase <;> cases h <;> refine ⟨?_, by simp [between, hPhase]⟩
  · exact turned_fill hPhase
  · exact turned_control hPhase
  · exact turned_data hPhase
  · exact turned_select hPhase
  · exact turned_selectData hPhase

theorem Turned.effect (h : Turned p controlGone dataGone p') (hBetween : p.between) :
    Effect p controlGone p' := by
  cases h with
  | takesControl o rest hControl => exact .startControl o rest hControl hBetween
  | takesData o scheduled hPop hPhase => exact .startData o scheduled hPop hPhase
  | schedules o rest scheduled hData _ hPush _ hNext =>
    rcases hNext with ⟨hPhase, rfl⟩ | ⟨-, rfl⟩
    · exact .schedule o rest scheduled hData hPush p.phase (.inl hPhase) hBetween
    · obtain ⟨next, hNext, hEq⟩ := loopTop_eq { p with data := rest, scheduled }
      rw [hEq]
      exact .schedule o rest scheduled hData hPush next hNext hBetween
  | overflows => exact .stop false (alive_of_between hBetween)
  | closesControl hControl _ hGone _ hNext =>
    rcases hNext with ⟨hPhase, rfl⟩ | ⟨-, rfl⟩
    · exact .move _ (by constructor <;> rfl) hBetween rfl rfl (fun _ => ⟨hPhase, .inl hControl⟩)
        (.inr ⟨rfl, hControl, hGone⟩)
    · exact .reloop hBetween (by constructor <;> rfl) rfl (.inr ⟨rfl, hControl, hGone⟩)
  | closesData _ _ _ _ hNext =>
    rcases hNext with ⟨hPhase, rfl⟩ | ⟨-, rfl⟩
    · exact .move _ (by constructor <;> rfl) hBetween hBetween rfl (by simp [hPhase]) (.inl rfl)
    · exact .reloop hBetween (by constructor <;> rfl) rfl (.inl rfl)
  | passes hPhase hPop => exact .goto .data hBetween rfl fun _ => ⟨hPhase, hPop⟩
  | ends | filled | waits | waitsData | waitsAgain => exact .goto _ hBetween rfl (by simp)

end

theorem stepWith_same (p : Pipeline) (gone : Bool) (a : WriterAction) :
    p.stepWith gone gone a = p.step gone a := by
  cases a <;> rfl

/-- **Inversion.** Every step of the writer is one of the effects. -/
theorem stepWith_effect {controlGone dataGone : Bool}
    (h : p.stepWith controlGone dataGone a = some p') : Effect p controlGone p' := by
  cases a with
  | turn =>
    obtain ⟨hTurn, hBetween⟩ := turnWith_turned h
    exact hTurn.effect hBetween
  | wrote n =>
    simp only [stepWith, wrote] at h
    split at h
    · rename_i rest isData hPhase
      split_ifs at h with hN hAll
      · cases h
        obtain ⟨_, hNext, hEq⟩ := loopTop_eq { p with
          outgoing := p.outgoing ++ rest.take n
          bytesOut := p.bytesOut ++ rest.take n
          controlBurst := if isData then 0 else p.controlBurst + 1 }
        rw [written, hEq]
        exact .wrote n rest isData hPhase hN.1 hN.2 _ (by constructor <;> rfl) rfl
          (.inr ⟨hAll, hNext⟩)
      · cases h
        exact .wrote n rest isData hPhase hN.1 hN.2 _ (by constructor <;> rfl) rfl
          (.inl ⟨Nat.lt_of_le_of_ne hN.2 hAll, rfl⟩)
    · cases h
  | failed =>
    simp only [stepWith, failed] at h
    split at h <;> rename_i hPhase <;> cases h <;> exact .stop false (by simp [alive, hPhase])
  | finished =>
    simp only [stepWith, finished] at h
    split at h <;> rename_i hPhase <;> cases h
    exact .stop true (by simp [alive, hPhase])

theorem step_effect (h : p.step disconnected a = some p') : Effect p disconnected p' :=
  stepWith_effect ((stepWith_same ..).trans h)

/-- The writer takes from its queues and adds nothing to what they accepted. -/
theorem Effect.accepted (h : Effect p disconnected p') :
    p'.sentControl = p.sentControl ∧ p'.sentData = p.sentData := by
  cases h with
  | startControl | startData | schedule | stop => exact ⟨rfl, rfl⟩
  | move p' hSame | wrote n rest isData hPhase hPos hLen p' hSame =>
    exact ⟨hSame.sentControl, hSame.sentData⟩

theorem pushControl_eq (h : p.pushControl o = some p') : p.alive ∧
      p' = { p with control := p.control ++ [o], sentControl := p.sentControl ++ [o] } := by
  unfold pushControl at h
  split_ifs at h with hRoom
  cases h
  exact ⟨hRoom.1, rfl⟩

theorem pushData_eq (h : p.pushData o = some p') :
    p.alive ∧ p' = { p with data := p.data ++ [o], sentData := p.sentData ++ [o] } := by
  unfold pushData at h
  split_ifs at h with hRoom
  cases h
  exact ⟨hRoom.1, rfl⟩

/-! ## Order -/

/-- Frames leave in the order their queue accepted them: all control frames, and
the data frames of each stream. While the writer runs, what it has not started is
still queued. -/
structure Fifo (p : Pipeline) : Prop where
  controlTyped : ∀ o ∈ p.sentControl, o.isData = false
  dataTyped : ∀ o ∈ p.data, o.isData = true
  control : p.alive → p.started.filter (!·.isData) ++ p.control = p.sentControl
  controlPrefix : p.started.filter (!·.isData) <+: p.sentControl
  data : p.alive → ∀ s, p.started.filter (·.isDataOf s) ++ p.scheduled.items s ++
    p.data.filter (·.isDataOf s) = p.sentData.filter (·.isDataOf s)
  dataPrefix : ∀ s, p.started.filter (·.isDataOf s) <+: p.sentData.filter (·.isDataOf s)

theorem Fifo.pushControl (hInv : p.Fifo) (hType : o.isData = false)
    (h : p.pushControl o = some p') : p'.Fifo := by
  obtain ⟨-, rfl⟩ := pushControl_eq h
  exact { hInv with
    controlTyped := forall_mem_append.mpr
      ⟨hInv.controlTyped, forall_mem_singleton.mpr hType⟩
    control := fun hAlive => by rw [← append_assoc, hInv.control hAlive]
    controlPrefix := hInv.controlPrefix.trans (prefix_append _ _) }

theorem Fifo.pushData (hInv : p.Fifo) (hType : o.isData = true)
    (h : p.pushData o = some p') : p'.Fifo := by
  obtain ⟨-, rfl⟩ := pushData_eq h
  exact { hInv with
    dataTyped := forall_mem_append.mpr
      ⟨hInv.dataTyped, forall_mem_singleton.mpr hType⟩
    data := fun hAlive s => by
      rw [filter_append, filter_append, ← append_assoc, hInv.data hAlive s]
    dataPrefix := fun s => by
      rw [filter_append]
      exact (hInv.dataPrefix s).trans (prefix_append _ _) }

/-- A scheduled frame is a data frame of the stream it is queued under. -/
theorem Fifo.scheduled_isDataOf (hInv : p.Fifo) (hAlive : p.alive) {s : StreamId}
    (h : o ∈ p.scheduled.items s) : o.isDataOf s = true := by
  have hMem : o ∈ p.sentData.filter (·.isDataOf s) := by
    rw [← hInv.data hAlive s]
    exact mem_append_left _ (mem_append_right _ h)
  exact (mem_filter.mp hMem).2

theorem isDataOf_ne {k s : StreamId} (h : o.isDataOf k = true) (hNe : s ≠ k) :
    o.isDataOf s = false := by
  simp only [Outbound.isDataOf, Bool.and_eq_true, decide_eq_true_eq] at h
  simp [Outbound.isDataOf, h.2, Ne.symm hNe]

theorem Fifo.stop (hInv : p.Fifo) (ok : Bool) : (p.stop ok).Fifo :=
  { hInv with
    dataTyped := fun o h => by simp [Pipeline.stop] at h
    control := fun h => by simp [Pipeline.stop, alive] at h
    data := fun h => by simp [Pipeline.stop, alive] at h }

theorem Fifo.same (hInv : p.Fifo) (hSame : SameQueues p p') (hAlive : p.alive) :
    p'.Fifo where
  controlTyped := by rw [hSame.sentControl]; exact hInv.controlTyped
  dataTyped := by rw [hSame.data]; exact hInv.dataTyped
  control _ := by rw [hSame.started, hSame.control, hSame.sentControl]; exact hInv.control hAlive
  controlPrefix := by rw [hSame.started, hSame.sentControl]; exact hInv.controlPrefix
  data _ := by
    rw [hSame.started, hSame.scheduled, hSame.data, hSame.sentData]
    exact hInv.data hAlive
  dataPrefix := by rw [hSame.started, hSame.sentData]; exact hInv.dataPrefix

/-- **Every writer step keeps the order.** -/
theorem fifo_step (hInv : p.Fifo) (h : p.step disconnected a = some p') :
    p'.Fifo := by
  cases step_effect h with
  | startControl o rest hControl hBetween =>
    have hAlive := alive_of_between hBetween
    -- the frame moves from the queue to what was started
    have hOrder := hInv.control hAlive
    have hType : o.isData = false :=
      hInv.controlTyped o (by rw [← hOrder, hControl]; simp)
    have hNot : ∀ s, o.isDataOf s = false := fun s => by simp [Outbound.isDataOf, hType]
    have hOrder' : (p.started ++ [o]).filter (!·.isData) ++ rest = p.sentControl := by
      rw [← hOrder, hControl, filter_append]
      simp [hType]
    exact { hInv with
      control := fun _ => hOrder'
      controlPrefix := hOrder' ▸ prefix_append _ _
      data := fun _ s => by
        rw [filter_append]
        simpa [hNot s] using hInv.data hAlive s
      dataPrefix := fun s => by
        rw [filter_append]
        simpa [hNot s] using hInv.dataPrefix s }
  | startData o scheduled hPop hPhase =>
    have hAlive : p.alive := by simp [alive, hPhase]
    obtain ⟨k, hHead, hOther⟩ := items_pop hPop
    have hOf : o.isDataOf k = true :=
      hInv.scheduled_isDataOf hAlive (by rw [hHead]; exact mem_cons_self)
    have hType : o.isData = true := by
      simp only [Outbound.isDataOf, Bool.and_eq_true] at hOf
      exact hOf.1
    -- only the queue of the stream `k` gives an item away
    have hOrder : ∀ s, (p.started ++ [o]).filter (·.isDataOf s) ++ scheduled.items s ++
        p.data.filter (·.isDataOf s) = p.sentData.filter (·.isDataOf s) := by
      intro s
      rw [← hInv.data hAlive s, filter_append]
      by_cases hs : s = k
      · subst hs
        simp [hHead, hOf]
      · simp [hOther s hs, isDataOf_ne hOf hs]
    exact { hInv with
      control := fun _ => by
        rw [filter_append]
        simpa [hType] using hInv.control hAlive
      controlPrefix := by
        rw [filter_append]
        simpa [hType] using hInv.controlPrefix
      data := fun _ => hOrder
      dataPrefix := fun s => by
        rw [← hOrder s, append_assoc]
        exact prefix_append _ _ }
  | schedule o _ _ hData hPush _ _ hBetween =>
    have hAlive := alive_of_between hBetween
    have hType : o.isData = true := hInv.dataTyped o (by rw [hData]; exact mem_cons_self)
    exact { hInv with
      dataTyped := fun x hx => hInv.dataTyped x (by rw [hData]; exact mem_cons_of_mem o hx)
      control := fun _ => hInv.control hAlive
      data := fun _ s => by
        rw [← hInv.data hAlive s, hData, items_push hPush]
        by_cases hs : s = o.streamId
        · subst hs
          simp [Outbound.isDataOf, hType]
        · simp [hs, Outbound.isDataOf, Ne.symm hs] }
  | move _ hSame hBetween =>
    exact hInv.same hSame (alive_of_between hBetween)
  | wrote n rest _ hPhase _ _ _ hSame =>
    have hInv' : Fifo { p with
        outgoing := p.outgoing ++ rest.take n, bytesOut := p.bytesOut ++ rest.take n } :=
      { hInv with }
    exact hInv'.same hSame (by simp [alive, hPhase])
  | stop ok => exact hInv.stop ok

/-! ## Bytes -/

/-- The frames whose encoding the writer began, in wire order. -/
def startedFrames (p : Pipeline) : List Frame := p.started.map Outbound.frame

/-- What is still to be written of the frame in progress. -/
def unsent (p : Pipeline) : List UInt8 :=
  match p.phase with
  | .writing rest _ => rest
  | _ => []

/-- The bytes written are those of the started frames, up to the rest of the frame
in progress; a writer that failed may have cut its last frame. -/
structure Framed (p : Pipeline) : Prop where
  whole : p.alive → p.bytesOut ++ p.unsent = encodeAll p.startedFrames
  cut : p.bytesOut <+: encodeAll p.startedFrames

theorem framed_new (controlCapacity dataCapacity : Nat) :
    (new controlCapacity dataCapacity).Framed := by
  constructor <;> simp [new, unsent, startedFrames]

theorem framed_of_whole (h : p.bytesOut ++ p.unsent = encodeAll p.startedFrames) : p.Framed where
  whole _ := h
  cut := h ▸ prefix_append _ _

theorem unsent_of_between (h : p.between) : p.unsent = [] := by
  unfold between at h
  unfold unsent
  cases hPhase : p.phase <;> simp [hPhase] at h ⊢

theorem Framed.start (hInv : p.Framed) (hBetween : p.between) (o : Outbound) :
    p.bytesOut ++ o.frame.wire = encodeAll ((p.started ++ [o]).map Outbound.frame) := by
  have hWhole := hInv.whole (alive_of_between hBetween)
  rw [unsent_of_between hBetween, append_nil] at hWhole
  rw [map_append, encodeAll_append, hWhole]
  simp [startedFrames]

theorem Effect.framed (h : Effect p disconnected p') (hInv : p.Framed) :
    p'.Framed := by
  cases h with
  | startControl o _ _ hBetween => exact framed_of_whole (hInv.start hBetween o)
  | startData o _ _ hPhase =>
    exact framed_of_whole (hInv.start (by simp [between, hPhase]) o)
  | schedule _ _ _ _ _ _ hNext hBetween =>
    have hWhole := hInv.whole (alive_of_between hBetween)
    rw [unsent_of_between hBetween] at hWhole
    apply framed_of_whole
    rcases hNext with rfl | rfl <;> exact hWhole
  | move _ hSame hBetween hBetween' =>
    have hWhole := hInv.whole (alive_of_between hBetween)
    apply framed_of_whole
    rwa [unsent_of_between hBetween', hSame.bytesOut, startedFrames, hSame.started,
      ← unsent_of_between hBetween]
  | wrote n rest _ hPhase _ _ p' hSame _ hNext =>
    have hWhole := hInv.whole (by simp [alive, hPhase])
    rw [show p.unsent = rest by simp [unsent, hPhase]] at hWhole
    apply framed_of_whole
    rw [hSame.bytesOut, startedFrames, hSame.started]
    have hUnsent : p'.unsent = rest.drop n := by
      rcases hNext with ⟨-, hPhase'⟩ | ⟨hAll, hPhase' | hPhase'⟩
      · simp [unsent, hPhase']
      · simp [unsent, hPhase', hAll]
      · simp [unsent, hPhase', hAll]
    rw [hUnsent]
    simpa [startedFrames] using hWhole
  | stop => exact ⟨fun hA => by simp [Pipeline.stop, alive] at hA, hInv.cut⟩

end Pipeline

end TunnelProxy.Mux
