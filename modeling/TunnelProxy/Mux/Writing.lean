import TunnelProxy.Lib.Transition
import TunnelProxy.Mux.WriterProgress

/-!
# The writer under every arrival schedule

`writer_actor` on its own: frames of any kind arrive on the two queues in any order, the
senders of a data frame first hold a permit for it, and each queue loses its last sender at
any time. The writer's `turn`s are those of `Pipeline`, with one flag for each queue that says
whether a sender is left.

The log records from which queue each frame was taken.

* `WriterRun.Ordered` — what was taken from a queue is what arrived there, in order: for the
  control queue as a whole, for the data queue stream by stream.
* `Pipeline.Shut` — a queue counts as closed when it is empty and has no sender, and the
  writer stops when both are.
* `WriterRun.writes_each_frame_once` — the three together, with the writer's progress.
-/

namespace TunnelProxy.Mux

open Protocol Common Transition BoundedFairQueue List Pipeline Option

/-! ## Senders, queues and the writer -/

inductive Queue where
  | control
  | data
deriving DecidableEq

structure WriterRun where
  pipe : Pipeline
  /-- A sender of the control queue is left. -/
  controlSenders : Bool
  dataSenders : Bool
  /-- Frames whose senders hold a permit and have not handed them over yet. -/
  admitted : List Outbound
  -- History.
  log : List (Queue × Outbound)
  transportFailed : Bool

inductive WriterRunAction where
  | sendControl (o : Outbound)
  /-- `BoundedQueueSender::send` acquires a permit, -/
  | acquire (o : Outbound)
  /-- and hands the frame over; -/
  | sendData (i : Nat)
  /-- or its task is dropped in between. -/
  | abandon (i : Nat)
  | closeControl
  | closeData
  | writer (a : WriterAction)
deriving DecidableEq

namespace WriterRun

def new (controlCapacity dataCapacity : Nat) : WriterRun where
  pipe := .new controlCapacity dataCapacity
  controlSenders := true
  dataSenders := true
  admitted := []
  log := []
  transportFailed := false

/-- A frame that the writer began to write, with the queue it came from. -/
def record (p p' : Pipeline) : List (Queue × Outbound) :=
  match p'.phase with
  | .writing _ isData =>
    (p'.started.drop p.started.length).map fun o => (if isData then .data else .control, o)
  | _ => []

def step (s : WriterRun) : WriterRunAction → Option WriterRun
  | .sendControl o =>
    if s.controlSenders then (s.pipe.pushControl o).map fun pipe => { s with pipe } else none
  | .acquire o =>
    if s.dataSenders ∧ s.pipe.alive ∧ s.pipe.permitsUsed + s.admitted.length < s.pipe.dataCapacity
    then some { s with admitted := s.admitted ++ [o] }
    else none
  | .sendData i =>
    match s.admitted[i]? with
    | none => none
    | some o =>
      (s.pipe.pushData o).map fun pipe => { s with pipe, admitted := s.admitted.eraseIdx i }
  | .abandon i =>
    if i < s.admitted.length then some { s with admitted := s.admitted.eraseIdx i } else none
  | .closeControl => some { s with controlSenders := false }
  | .closeData => if s.admitted = [] then some { s with dataSenders := false } else none
  | .writer a =>
    (s.pipe.stepWith (!s.controlSenders) (!s.dataSenders) a).map fun pipe =>
      { s with
        pipe
        log := s.log ++ record s.pipe pipe
        transportFailed := s.transportFailed || a = .failed }

end WriterRun

/-- The frames of one queue, in the order in which their encodings were begun. -/
def takenFrom (log : List (Queue × Outbound)) (queue : Queue) : List Outbound :=
  (log.filter (·.1 = queue)).map Prod.snd

@[simp] theorem takenFrom_append (log more : List (Queue × Outbound)) (queue : Queue) :
    takenFrom (log ++ more) queue = takenFrom log queue ++ takenFrom more queue := by
  simp [takenFrom]

@[simp] theorem takenFrom_nil (queue : Queue) : takenFrom [] queue = [] := rfl

@[simp] theorem takenFrom_self (queue : Queue) (o : Outbound) :
    takenFrom [(queue, o)] queue = [o] := by
  simp [takenFrom]

theorem takenFrom_other {queue other : Queue} (h : queue ≠ other) (o : Outbound) :
    takenFrom [(queue, o)] other = [] := by
  simp [takenFrom, h]

/-- The frames of one stream. -/
def onStream (k : StreamId) (frames : List Outbound) : List Outbound :=
  frames.filter (·.streamId = k)

@[simp] theorem onStream_append (k : StreamId) (xs ys : List Outbound) :
    onStream k (xs ++ ys) = onStream k xs ++ onStream k ys := by
  simp [onStream]

theorem onStream_singleton (k : StreamId) (o : Outbound) :
    onStream k [o] = if o.streamId = k then [o] else [] := by
  by_cases h : o.streamId = k <;> simp [onStream, h]

variable {o : Outbound}

namespace WriterRun

/-! ## Order -/

/-- What was taken from a queue and what is still there is what arrived, in order. A writer
that has ended took the first of it. -/
structure Ordered (log : List (Queue × Outbound)) (p : Pipeline) : Prop where
  logged : log.map Prod.snd = p.started
  control : p.alive → takenFrom log .control ++ p.control = p.sentControl
  controlPrefix : takenFrom log .control <+: p.sentControl
  data : p.alive → ∀ k,
    onStream k (takenFrom log .data) ++ p.scheduled.items k ++ onStream k p.data =
      onStream k p.sentData
  dataPrefix : ∀ k, onStream k (takenFrom log .data) <+: onStream k p.sentData

variable {p p' : Pipeline}

theorem record_of_same (h : p'.started = p.started) : record p p' = [] := by
  unfold record
  split
  · rw [h, drop_length]
    rfl
  · rfl

theorem record_of_writing {bytes : List UInt8} {isData : Bool} {o : Outbound}
    (hPhase : p'.phase = .writing bytes isData) (hStarted : p'.started = p.started ++ [o]) :
    record p p' = [(if isData then .data else .control, o)] := by
  simp [record, hPhase, hStarted]

variable {log : List (Queue × Outbound)}

/-- A step that begins no frame records nothing. -/
theorem Ordered.quiet (h : Ordered log p') (hStarted : p'.started = p.started) :
    Ordered (log ++ record p p') p' := by
  rw [record_of_same hStarted, append_nil]
  exact h

theorem ordered_of_same (h : Ordered log p) (hSame : SameQueues p p') (hAlive : p.alive) :
    Ordered log p' where
  logged := h.logged.trans hSame.started.symm
  control _ := by rw [hSame.control, hSame.sentControl]; exact h.control hAlive
  controlPrefix := by rw [hSame.sentControl]; exact h.controlPrefix
  data _ := by rw [hSame.scheduled, hSame.data, hSame.sentData]; exact h.data hAlive
  dataPrefix := by rw [hSame.sentData]; exact h.dataPrefix

theorem Ordered.startControl {rest : List Outbound} (h : Ordered log p)
    (hAlive : p.alive) (hControl : p.control = o :: rest) (bytes : List UInt8) :
    Ordered (log ++ [(.control, o)])
      { p with control := rest, phase := .writing bytes false, started := p.started ++ [o] } := by
  have hOther : takenFrom [(Queue.control, o)] .data = [] := takenFrom_other (by decide) o
  have hOrder : takenFrom (log ++ [(.control, o)]) .control ++ rest = p.sentControl := by
    rw [← h.control hAlive, hControl, takenFrom_append, takenFrom_self, append_assoc]
    rfl
  exact {
    logged := by rw [map_append, h.logged]; rfl
    control := fun _ => hOrder
    controlPrefix := hOrder ▸ prefix_append _ _
    data := fun _ k => by
      rw [takenFrom_append, hOther, append_nil]
      exact h.data hAlive k
    dataPrefix := fun k => by
      rw [takenFrom_append, hOther, append_nil]
      exact h.dataPrefix k }

/-- The fair queue hands out the first waiting frame of some stream. -/
theorem Ordered.startData {scheduled : BoundedFairQueue StreamId Outbound}
    (h : Ordered log p) (hAlive : p.alive) (hPop : p.scheduled.pop = some (o, scheduled))
    (bytes : List UInt8) :
    Ordered (log ++ [(.data, o)])
      { p with
        scheduled := scheduled, phase := .writing bytes true, started := p.started ++ [o] } := by
  have hOther : takenFrom [(Queue.data, o)] .control = [] := takenFrom_other (by decide) o
  obtain ⟨key, hHead, hRest⟩ := items_pop hPop
  have hKey : o.streamId = key := by
    have hMem : o ∈ onStream key p.sentData := by
      rw [← h.data hAlive key, hHead]
      simp
    simpa using (mem_filter.mp hMem).2
  have hOrder : ∀ k, onStream k (takenFrom (log ++ [(.data, o)]) .data) ++ scheduled.items k ++
      onStream k p.data = onStream k p.sentData := by
    intro k
    rw [← h.data hAlive k, takenFrom_append, takenFrom_self, onStream_append, onStream_singleton]
    by_cases hk : o.streamId = k
    · rw [if_pos hk, ← hk, hKey, hHead]
      simp
    · rw [if_neg hk, hRest k fun hEq => hk (hKey.trans hEq.symm), append_nil]
  exact {
    logged := by rw [map_append, h.logged]; rfl
    control := fun _ => by
      rw [takenFrom_append, hOther, append_nil]
      exact h.control hAlive
    controlPrefix := by
      rw [takenFrom_append, hOther, append_nil]
      exact h.controlPrefix
    data := fun _ => hOrder
    dataPrefix := fun k => by
      rw [← hOrder k, append_assoc]
      exact prefix_append _ _ }

/-- **Every step of the writer keeps the order.** -/
theorem Ordered.effect {gone : Bool} (h : Ordered log p) (hEffect : Effect p gone p') :
    Ordered (log ++ record p p') p' := by
  cases hEffect with
  | startControl o rest hControl hBetween =>
    rw [record_of_writing rfl rfl]
    exact h.startControl (alive_of_between hBetween) hControl _
  | startData o scheduled hPop hPhase =>
    rw [record_of_writing rfl rfl]
    exact h.startData (by simp [alive, hPhase]) hPop _
  | schedule o rest _ hData hPush _ _ hBetween =>
    have hAlive := alive_of_between hBetween
    refine Ordered.quiet { h with control := fun _ => h.control hAlive, data := fun _ k => ?_ } rfl
    rw [← h.data hAlive k, hData, items_push hPush,
      show o :: rest = [o] ++ rest from rfl, onStream_append, onStream_singleton]
    by_cases hk : k = o.streamId
    · rw [if_pos hk, if_pos hk.symm]
      simp
    · rw [if_neg hk, if_neg (Ne.symm hk)]
      simp
  | move _ hSame hBetween =>
    exact (ordered_of_same h hSame (alive_of_between hBetween)).quiet hSame.started
  | wrote n rest _ hPhase _ _ _ hSame =>
    have hWritten : Ordered log { p with
        outgoing := p.outgoing ++ rest.take n, bytesOut := p.bytesOut ++ rest.take n } :=
      { h with }
    exact (ordered_of_same hWritten hSame (by simp [alive, hPhase])).quiet hSame.started
  | stop ok =>
    have hEnded : ¬ (p.stop ok).alive := by simp [stop, alive]
    exact Ordered.quiet { h with
      control := fun hA => absurd hA hEnded, data := fun hA => absurd hA hEnded } rfl

end WriterRun

/-! ## Admission -/

namespace Pipeline

variable {p p' : Pipeline} {a : WriterAction}

theorem permitsUsed_of_between (h : p.between) :
    p.permitsUsed = p.data.length + p.scheduled.len := by
  unfold between at h
  unfold permitsUsed
  cases hPhase : p.phase <;> simp [hPhase] at h ⊢

theorem queued_le_permitsUsed (p : Pipeline) : p.data.length + p.scheduled.len ≤ p.permitsUsed := by
  unfold permitsUsed
  omega

/-- No step of the writer takes a permit, and the bounds are never changed. -/
theorem Effect.permits {gone : Bool} (h : Effect p gone p')
    (hCapacity : p.scheduled.capacity = p.dataCapacity) :
    p'.permitsUsed ≤ p.permitsUsed ∧ p'.dataCapacity = p.dataCapacity ∧
      p'.scheduled.capacity = p.dataCapacity := by
  cases h with
  | startControl _ _ _ hBetween =>
    rw [permitsUsed_of_between hBetween]
    exact ⟨Nat.le_refl _, rfl, hCapacity⟩
  | startData _ scheduled hPop hPhase =>
    obtain ⟨_, hBound⟩ := pop_counts hPop
    have hUsed : p.permitsUsed = p.data.length + p.scheduled.len :=
      permitsUsed_of_between (by simp [between, hPhase])
    refine ⟨?_, rfl, hBound.trans hCapacity⟩
    show p.data.length + scheduled.len + 1 ≤ p.permitsUsed
    omega
  | schedule _ rest scheduled hData hPush _ hNext hBetween =>
    obtain ⟨_, hBound⟩ := push_counts hPush
    rw [permitsUsed_of_between hBetween,
      permitsUsed_of_between (by rcases hNext with rfl | rfl <;> rfl)]
    refine ⟨?_, rfl, hBound.trans hCapacity⟩
    show rest.length + scheduled.len ≤ _
    rw [hData, length_cons]
    omega
  | move _ hSame hBetween hBetween' =>
    rw [permitsUsed_of_between hBetween, permitsUsed_of_between hBetween', hSame.data,
      hSame.scheduled]
    exact ⟨Nat.le_refl _, hSame.dataCapacity, hCapacity⟩
  | wrote _ _ isData hPhase _ _ _ hSame _ hNext =>
    refine ⟨?_, hSame.dataCapacity, hSame.scheduled ▸ hCapacity⟩
    rcases hNext with ⟨-, hPhase'⟩ | ⟨-, hPhase'⟩
    · unfold permitsUsed
      rw [hPhase, hPhase', hSame.data, hSame.scheduled]
      cases isData <;> exact Nat.le_refl _
    · rw [permitsUsed_of_between (by rcases hPhase' with h | h <;> simp [between, h]), hSame.data,
        hSame.scheduled]
      exact queued_le_permitsUsed p
  | stop _ _ =>
    refine ⟨?_, rfl, rfl⟩
    show 0 + 0 + 0 ≤ _
    omega

/-! ## Closing -/

/-- The writer takes a queue for closed once it is empty and has no sender, and it stops
when that is so of both and nothing is scheduled. -/
structure Shut (p : Pipeline) (controlGone dataGone : Bool) : Prop where
  control : p.controlOpen = false → controlGone = true ∧ p.control = []
  data : p.dataOpen = false → dataGone = true ∧ p.data = []
  ends : p.phase = .shutdown ∨ p.phase = .done true →
    p.controlOpen = false ∧ p.dataOpen = false ∧ p.scheduled.len = 0
  waits : p.phase = .select ∨ p.phase = .selectData → p.scheduled.len = 0

variable {controlGone dataGone : Bool}

section

variable (h : p.Shut controlGone dataGone)
include h

theorem Shut.goto {next : WriterPhase}
    (hNext : next ≠ .shutdown ∧ next ≠ .done true)
    (hWaits : next = .select ∨ next = .selectData → p.scheduled.len = 0) :
    Shut { p with phase := next } controlGone dataGone :=
  ⟨h.control, h.data, fun hEnds => absurd hEnds (not_or.mpr hNext), hWaits⟩

omit h in
theorem shut_loopTop (hControl : p.controlOpen = false → controlGone = true ∧ p.control = [])
    (hData : p.dataOpen = false → dataGone = true ∧ p.data = []) :
    p.loopTop.Shut controlGone dataGone := by
  unfold loopTop
  split_ifs with hLoop
  · exact ⟨hControl, hData, by simp, by simp⟩
  · refine ⟨hControl, hData, fun _ => ?_, by simp⟩
    simp only [Bool.or_eq_true, Bool.not_eq_true', not_or, Bool.not_eq_true, Bool.not_eq_false]
      at hLoop
    exact ⟨hLoop.1.1, hLoop.1.2, of_decide_eq_true hLoop.2⟩

omit h in
theorem alive_loopTop (p : Pipeline) : p.loopTop.alive := alive_of_between (between_loopTop p)

theorem Shut.turned (hRoom : p.data ≠ [] → p.scheduled.len < p.scheduled.capacity)
    (hTurn : Turned p controlGone dataGone p') : p'.Shut controlGone dataGone ∧ p'.alive := by
  cases hTurn with
  | takesControl _ _ _ hOpen =>
    exact ⟨⟨fun hClosed => absurd hClosed (by simp [hOpen]), h.data, by simp, by simp⟩, rfl⟩
  | takesData => exact ⟨⟨h.control, h.data, by simp, by simp⟩, rfl⟩
  | schedules _ rest _ _ hOpen _ _ hNext =>
    have hData : p.dataOpen = false → dataGone = true ∧ rest = [] := fun hClosed =>
      absurd hClosed (by simp [hOpen])
    rcases hNext with ⟨hPhase, rfl⟩ | ⟨-, rfl⟩
    · exact ⟨⟨h.control, hData, by simp [hPhase], by simp [hPhase]⟩, by simp [alive, hPhase]⟩
    · exact ⟨shut_loopTop h.control hData, alive_loopTop _⟩
  | overflows o _ hData hPush =>
    -- the permits leave room in the scheduler
    obtain ⟨_, hError⟩ := hPush
    obtain ⟨_, hOk⟩ := push_ok (hRoom (by rw [hData]; exact cons_ne_nil _ _)) o.streamId o
    cases hOk.symm.trans hError
  | closesControl hControl _ hGone _ hNext =>
    rcases hNext with ⟨-, rfl⟩ | ⟨-, rfl⟩
    · exact ⟨⟨fun _ => ⟨hGone, hControl⟩, h.data, by simp, by simp⟩, rfl⟩
    · exact ⟨shut_loopTop (fun _ => ⟨hGone, hControl⟩) h.data, alive_loopTop _⟩
  | closesData hData _ hGone _ hNext =>
    rcases hNext with ⟨hPhase, rfl⟩ | ⟨-, rfl⟩
    · exact ⟨⟨h.control, fun _ => ⟨hGone, hData⟩, by simp [hPhase], by simp [hPhase]⟩,
        by simp [alive, hPhase]⟩
    · exact ⟨shut_loopTop h.control fun _ => ⟨hGone, hData⟩, alive_loopTop _⟩
  | ends hPop hControl hData =>
    exact ⟨⟨h.control, h.data, fun _ => ⟨hControl, hData, pop_eq_none_iff.mp hPop⟩, by simp⟩, rfl⟩
  | filled | passes => exact ⟨h.goto (by simp) (by simp), rfl⟩
  | waits hPop => exact ⟨h.goto (by simp) fun _ => pop_eq_none_iff.mp hPop, rfl⟩
  | waitsData _ hPhase => exact ⟨h.goto (by simp) fun _ => h.waits (.inl hPhase), rfl⟩
  | waitsAgain _ hPhase => exact ⟨h.goto (by simp) fun _ => h.waits (.inr hPhase), rfl⟩

/-- **No overflow, no early end.** With room for what is queued, a step of the writer ends it
only on a transport error or after the shutdown. -/
theorem Shut.stepWith (hRoom : p.data ≠ [] → p.scheduled.len < p.scheduled.capacity)
    (hStep : p.stepWith controlGone dataGone a = some p') :
    p'.Shut controlGone dataGone ∧ (p'.phase = .done false → a = .failed) ∧
      (p'.phase = .done true → p.phase = .shutdown ∧ p' = p.stop true) := by
  have hOfAlive : ∀ q : Pipeline, q.Shut controlGone dataGone ∧ q.alive →
      q.Shut controlGone dataGone ∧ (q.phase = .done false → a = .failed) ∧
        (q.phase = .done true → p.phase = .shutdown ∧ q = p.stop true) := by
    rintro _ ⟨hShut, hAlive⟩
    refine ⟨hShut, fun hDone => ?_, fun hDone => ?_⟩ <;> simp [alive, hDone] at hAlive
  cases a with
  | turn => exact hOfAlive _ (h.turned hRoom (turnWith_turned hStep).1)
  | wrote =>
    simp only [stepWith, wrote] at hStep
    split at hStep
    · split_ifs at hStep <;> cases hStep
      · exact hOfAlive _ ⟨shut_loopTop h.control h.data, alive_loopTop _⟩
      · exact hOfAlive _ ⟨⟨h.control, h.data, by simp, by simp⟩, rfl⟩
    · cases hStep
  | failed =>
    simp only [stepWith, failed] at hStep
    split at hStep <;> cases hStep
    all_goals
      refine ⟨⟨fun hOpen => ⟨(h.control hOpen).1, rfl⟩, fun hOpen => ⟨(h.data hOpen).1, rfl⟩, ?_,
        ?_⟩, fun _ => rfl, ?_⟩ <;> simp [stop]
  | finished =>
    simp only [stepWith, finished] at hStep
    split at hStep <;> rename_i hPhase <;> cases hStep
    obtain ⟨hControl, hData, -⟩ := h.ends (.inl hPhase)
    refine ⟨⟨fun hOpen => ⟨(h.control hOpen).1, rfl⟩, fun hOpen => ⟨(h.data hOpen).1, rfl⟩,
      fun _ => ⟨hControl, hData, rfl⟩, by simp [stop]⟩, by simp [stop], fun _ => ⟨hPhase, rfl⟩⟩

end

/-! ## Progress -/

/-- Nothing is queued and a queue has a sender: the writer waits in the `select!`. -/
def Idle (p : Pipeline) (controlGone dataGone : Bool) : Prop :=
  p.phase = .selectData ∧ p.control = [] ∧ p.data = [] ∧ (controlGone = false ∨ dataGone = false)

/-- A writer that is not idle goes back to the head of the `select!` only for the control queue. -/
theorem back_of_busy (hReady : p.Ready) (hShut : p.Shut controlGone dataGone)
    (hBusy : ¬ p.Idle controlGone dataGone) (hPhase : p.phase = .selectData)
    (hWaits : p.dataOpen = true → p.data = [] ∧ dataGone = false) :
    p.controlOpen = true ∧ (p.control ≠ [] ∨ controlGone = true) := by
  cases hData : p.dataOpen with
  | true =>
    -- A data sender is left, so there must be a control frame.
    obtain ⟨hNil, hGone⟩ := hWaits hData
    have hControl : p.control ≠ [] := fun hNone => hBusy ⟨hPhase, hNone, hNil, .inr hGone⟩
    refine ⟨?_, .inl hControl⟩
    by_contra hClosed
    exact hControl (hShut.control (by simpa using hClosed)).2
  | false =>
    -- The data queue is closed, so the control queue is not.
    refine ⟨(hReady.selects (.inr hPhase)).resolve_right (by simp [hData]), ?_⟩
    by_cases hControl : p.control = []
    · refine .inr ?_
      by_contra hGone
      exact hBusy ⟨hPhase, hControl, (hShut.data hData).2, .inl (by simpa using hGone)⟩
    · exact .inl hControl

/-- **The writer goes on** until it waits for a sender, or has ended. -/
theorem advancesWith (hReady : p.Ready) (hShut : p.Shut controlGone dataGone)
    (hAlive : p.alive) (hBusy : ¬ p.Idle controlGone dataGone) :
    ∃ a p', WriterAction.succeeds a = true ∧ p.stepWith controlGone dataGone a = some p' ∧
      p'.work + p'.patience controlGone < p.work + p.patience controlGone := by
  have hTurn : ∀ p', p.turnWith controlGone dataGone = some p' →
      p'.work + p'.patience controlGone < p.work + p.patience controlGone := by
    intro p' h
    obtain ⟨hTurned, hBetween⟩ := turnWith_turned h
    exact hTurned.advances hBetween (back_of_busy hReady hShut hBusy)
  cases hPhase : p.phase with
  | fill | control | data | select | selectData =>
    exact ⟨.turn, _, rfl, by rw [stepWith, turnWith, hPhase], hTurn _ (by rw [turnWith, hPhase])⟩
  | writing rest isData =>
    obtain ⟨p', hStep, hWork⟩ :
        ∃ p', p.step false (.wrote rest.length) = some p' ∧ p'.work < p.work :=
      work_wrote hPhase (hReady.writing rest isData hPhase)
    refine ⟨.wrote rest.length, p', rfl, hStep, ?_⟩
    have hPhase' : p'.phase ≠ .select := by
      cases step_effect hStep with
      | wrote _ _ _ _ _ _ _ _ _ hNext =>
        rcases hNext with ⟨-, h⟩ | ⟨-, h | h⟩ <;> simp [h]
      | startControl | startData => simp
      | schedule _ _ _ _ _ _ hNext => rcases hNext with rfl | rfl <;> simp
      | move _ _ hBetween => simp [between, hPhase] at hBetween
      | stop => simp [stop]
    rw [patience_of_phase hPhase']
    omega
  | shutdown =>
    have hWork := work_stop true hAlive
    refine ⟨.finished, _, rfl, by rw [stepWith, finished, hPhase], ?_⟩
    rw [patience_of_phase (by simp [stop])]
    omega
  | done => simp [alive, hPhase] at hAlive

end Pipeline

namespace WriterRun

/-! ## Whole runs -/

/-- Everything that arrived has been written, in full. -/
structure Drained (s : WriterRun) : Prop where
  control : takenFrom s.log .control = s.pipe.sentControl
  data : ∀ k, onStream k (takenFrom s.log .data) = onStream k s.pipe.sentData
  bytes : s.pipe.bytesOut = encodeAll (s.log.map fun entry => entry.2.frame)

structure Sound (s : WriterRun) : Prop where
  ordered : Ordered s.log s.pipe
  framed : s.pipe.Framed
  ready : s.pipe.Ready
  permits : s.pipe.permitsUsed + s.admitted.length ≤ s.pipe.dataCapacity
  capacity : s.pipe.scheduled.capacity = s.pipe.dataCapacity
  shut : s.pipe.Shut (!s.controlSenders) (!s.dataSenders)
  senders : s.dataSenders = false → s.admitted = []
  ended : s.pipe.phase = .done true → s.Drained
  failed : s.pipe.phase = .done false → s.transportFailed = true

theorem sound_new (controlCapacity dataCapacity : Nat) :
    (new controlCapacity dataCapacity).Sound where
  ordered := by constructor <;> simp [new, Pipeline.new, onStream]
  framed := framed_new _ _
  ready := ready_new _ _
  permits := Nat.zero_le _
  capacity := rfl
  shut := by constructor <;> simp [new, Pipeline.new]
  senders h := by cases h
  ended h := by cases h
  failed h := by cases h

variable {s : WriterRun}

theorem startedFrames_of_logged (h : Ordered s.log s.pipe) :
    s.pipe.startedFrames = s.log.map fun entry => entry.2.frame := by
  rw [startedFrames, ← h.logged, List.map_map]
  rfl

theorem Sound.drained (h : s.Sound) (hAlive : s.pipe.alive)
    (hControl : s.pipe.control = []) (hData : s.pipe.data = []) (hLen : s.pipe.scheduled.len = 0)
    (hUnsent : s.pipe.unsent = []) : s.Drained where
  control := by
    have hOrder := h.ordered.control hAlive
    rwa [hControl, append_nil] at hOrder
  data k := by
    have hOrder := h.ordered.data hAlive k
    rwa [hData, items_of_len_zero hLen, append_nil,
      show onStream k [] = [] from rfl, append_nil] at hOrder
  bytes := by
    have hWhole := h.framed.whole hAlive
    rwa [hUnsent, append_nil, startedFrames_of_logged h.ordered] at hWhole

/-- A queued data frame holds a permit, so the fair queue has room for it. -/
theorem Sound.room (h : s.Sound) (hData : s.pipe.data ≠ []) :
    s.pipe.scheduled.len < s.pipe.scheduled.capacity := by
  have hPos : 0 < s.pipe.data.length := length_pos_iff.mpr hData
  have hUsed := s.pipe.queued_le_permitsUsed
  have hPermits := h.permits
  rw [h.capacity]
  omega

variable {p' : Pipeline}

theorem Sound.writer {a : WriterAction} (h : s.Sound)
    (hStep : s.pipe.stepWith (!s.controlSenders) (!s.dataSenders) a = some p') :
    Sound { s with
      pipe := p'
      log := s.log ++ record s.pipe p'
      transportFailed := s.transportFailed || a = .failed } := by
  have hEffect := stepWith_effect hStep
  obtain ⟨_, hCapacity, hBound⟩ := hEffect.permits h.capacity
  obtain ⟨hShut, hFailed, hEnds⟩ := h.shut.stepWith h.room hStep
  have hUsed := h.permits
  exact {
    ordered := h.ordered.effect hEffect
    framed := hEffect.framed h.framed
    ready := h.ready.stepWith hStep
    permits := by
      show p'.permitsUsed + s.admitted.length ≤ p'.dataCapacity
      rw [hCapacity]
      omega
    capacity := hBound.trans hCapacity.symm
    shut := hShut
    senders := h.senders
    failed := fun hDone => by simp [hFailed hDone]
    ended := fun hDone => by
      -- The shutdown is reached with both queues closed and nothing scheduled.
      obtain ⟨hPhase, rfl⟩ := hEnds hDone
      obtain ⟨hControl, hData, hLen⟩ := h.shut.ends (.inl hPhase)
      have hDrained := h.drained (by simp [alive, hPhase]) (h.shut.control hControl).2
        (h.shut.data hData).2 hLen (by simp [unsent, hPhase])
      have hRecord : record s.pipe (s.pipe.stop true) = [] := record_of_same rfl
      rw [hRecord, append_nil]
      exact ⟨hDrained.control, hDrained.data, hDrained.bytes⟩ }

/-- A sender that adds to a queue of a running writer. -/
theorem Sound.push {control sentControl data sentData admitted : List Outbound} (h : s.Sound)
    (hAlive : s.pipe.alive) (hPipe : p' = { s.pipe with control, sentControl, data, sentData })
    (hOrdered : Ordered s.log p') (hShut : p'.Shut (!s.controlSenders) (!s.dataSenders))
    (hPermits : p'.permitsUsed + admitted.length ≤ p'.dataCapacity)
    (hSenders : s.dataSenders = false → admitted = []) :
    Sound { s with pipe := p', admitted } := by
  subst hPipe
  have hNotDone : ∀ ok, s.pipe.phase ≠ .done ok := by
    intro _ hDone
    simp [alive, hDone] at hAlive
  exact {
    ordered := hOrdered
    framed := framed_of_whole (h.framed.whole hAlive)
    ready := h.ready.congr rfl rfl rfl
    permits := hPermits
    capacity := h.capacity
    shut := hShut
    senders := hSenders
    ended := fun hDone => absurd hDone (hNotDone true)
    failed := fun hDone => absurd hDone (hNotDone false) }

theorem Sound.sendControl (h : s.Sound)
    (hSenders : s.controlSenders = true) (hPush : s.pipe.pushControl o = some p') :
    Sound { s with pipe := p' } := by
  obtain ⟨hAlive, rfl⟩ := pushControl_eq hPush
  refine h.push hAlive rfl ?_ ?_ h.permits h.senders
  · exact { h.ordered with
      control := fun _ => by rw [← append_assoc, h.ordered.control hAlive]
      controlPrefix := h.ordered.controlPrefix.trans (prefix_append _ _) }
  · refine { h.shut with control := fun hClosed => ?_ }
    have hGone := (h.shut.control hClosed).1
    rw [hSenders] at hGone
    cases hGone

theorem Sound.sendData {i : Nat} (h : s.Sound)
    (hAt : s.admitted[i]? = some o) (hPush : s.pipe.pushData o = some p') :
    Sound { s with pipe := p', admitted := s.admitted.eraseIdx i } := by
  obtain ⟨hAlive, rfl⟩ := pushData_eq hPush
  obtain ⟨hIndex, -⟩ := List.getElem?_eq_some_iff.mp hAt
  have hSenders : s.dataSenders = true := by
    by_contra hGone
    rw [h.senders (by simpa using hGone)] at hIndex
    exact absurd hIndex (Nat.not_lt_zero i)
  have hPermits := h.permits
  refine h.push hAlive rfl ?_ ?_ ?_ ?_
  · exact { h.ordered with
      data := fun _ k => by
        rw [onStream_append, onStream_append, ← append_assoc, h.ordered.data hAlive k]
      dataPrefix := fun k => by
        rw [onStream_append]
        exact (h.ordered.dataPrefix k).trans (prefix_append _ _) }
  · refine { h.shut with data := fun hClosed => ?_ }
    have hGone := (h.shut.data hClosed).1
    rw [hSenders] at hGone
    cases hGone
  · simp only [permitsUsed, length_append, length_singleton,
      length_eraseIdx_of_lt hIndex] at hPermits ⊢
    omega
  · intro hGone
    rw [show s.dataSenders = false from hGone] at hSenders
    cases hSenders

theorem Sound.step {s' : WriterRun} {a : WriterRunAction} (h : s.Sound)
    (hStep : s.step a = some s') : s'.Sound := by
  have hPermits := h.permits
  cases a with
  | sendControl =>
    simp only [WriterRun.step] at hStep
    split_ifs at hStep with hSenders
    obtain ⟨_, hPush, rfl⟩ := map_eq_some_iff.mp hStep
    exact h.sendControl hSenders hPush
  | acquire o =>
    simp only [WriterRun.step] at hStep
    split_ifs at hStep with hRoom
    cases hStep
    refine { h with permits := ?_, senders := fun hGone => ?_, ended := fun hDone => ?_ }
    · show s.pipe.permitsUsed + (s.admitted ++ [o]).length ≤ s.pipe.dataCapacity
      rw [length_append, length_singleton]
      omega
    · rw [show s.dataSenders = false from hGone] at hRoom
      cases hRoom.1
    · exact ⟨(h.ended hDone).1, (h.ended hDone).2, (h.ended hDone).3⟩
  | sendData i =>
    simp only [WriterRun.step] at hStep
    split at hStep
    · cases hStep
    · rename_i hAt
      obtain ⟨_, hPush, rfl⟩ := map_eq_some_iff.mp hStep
      exact h.sendData hAt hPush
  | abandon i =>
    simp only [WriterRun.step] at hStep
    split_ifs at hStep with hIndex
    cases hStep
    refine { h with permits := ?_, senders := fun hGone => ?_, ended := fun hDone => ?_ }
    · show s.pipe.permitsUsed + (s.admitted.eraseIdx i).length ≤ s.pipe.dataCapacity
      rw [length_eraseIdx_of_lt hIndex]
      omega
    · show s.admitted.eraseIdx i = []
      rw [h.senders hGone]
      rfl
    · exact ⟨(h.ended hDone).1, (h.ended hDone).2, (h.ended hDone).3⟩
  | closeControl =>
    cases hStep
    exact { h with
      shut := ⟨fun hOpen => ⟨rfl, (h.shut.control hOpen).2⟩, h.shut.data, h.shut.ends, h.shut.waits⟩
      ended := fun hDone => ⟨(h.ended hDone).1, (h.ended hDone).2, (h.ended hDone).3⟩ }
  | closeData =>
    simp only [WriterRun.step] at hStep
    split_ifs at hStep with hNone
    cases hStep
    exact { h with
      senders := fun _ => hNone
      shut := ⟨h.shut.control, fun hOpen => ⟨rfl, (h.shut.data hOpen).2⟩, h.shut.ends, h.shut.waits⟩
      ended := fun hDone => ⟨(h.ended hDone).1, (h.ended hDone).2, (h.ended hDone).3⟩ }
  | writer =>
    obtain ⟨_, hTurn, rfl⟩ := map_eq_some_iff.mp hStep
    exact h.writer hTurn

/-- A step of the writer whose transport works. -/
def WriterRunAction.writes : WriterRunAction → Bool
  | .writer a => WriterAction.succeeds a
  | _ => false

/-- By its own steps the writer comes to the point where it waits with nothing left to write,
or has ended. -/
theorem drains_of_sound (h : s.Sound) (hWorks : s.transportFailed = false) :
    ∃ actions s', (∀ a ∈ actions, WriterRunAction.writes a = true) ∧
      exec step s actions = some s' ∧ s'.Drained ∧
      s'.pipe.sentControl = s.pipe.sentControl ∧ s'.pipe.sentData = s.pipe.sentData ∧
      (s.controlSenders = false → s.dataSenders = false → s'.pipe.phase = .done true) := by
  -- The senders do nothing meanwhile, so their flags and what arrived stay as they are.
  let Quiet (t : WriterRun) : Prop := t.Sound ∧ t.transportFailed = false ∧
    t.controlSenders = s.controlSenders ∧ t.dataSenders = s.dataSenders ∧
    t.pipe.sentControl = s.pipe.sentControl ∧ t.pipe.sentData = s.pipe.sentData
  let Rests (t : WriterRun) : Prop := Quiet t ∧
    (t.pipe.Idle (!t.controlSenders) (!t.dataSenders) ∨ t.pipe.phase = .done true)
  have hAdvance : ∀ t, Quiet t → Rests t ∨ ∃ a t', WriterRunAction.writes a = true ∧
      step t a = some t' ∧ Quiet t' ∧
      t'.pipe.work + t'.pipe.patience (!t'.controlSenders) <
        t.pipe.work + t.pipe.patience (!t.controlSenders) := by
    intro t hQuiet
    have ⟨hSound, hFine, hControl, hData, hSentControl, hSentData⟩ := hQuiet
    by_cases hIdle : t.pipe.Idle (!t.controlSenders) (!t.dataSenders)
    · exact .inl ⟨hQuiet, .inl hIdle⟩
    by_cases hAlive : t.pipe.alive
    · obtain ⟨a, _, hSucceeds, hTurn, hLess⟩ :=
        advancesWith hSound.ready hSound.shut hAlive hIdle
      obtain ⟨hAcceptedControl, hAcceptedData⟩ := (stepWith_effect hTurn).accepted
      refine .inr ⟨.writer a, _, hSucceeds, by rw [step, hTurn]; rfl, ⟨hSound.writer hTurn, ?_,
        hControl, hData, hAcceptedControl.trans hSentControl, hAcceptedData.trans hSentData⟩, hLess⟩
      show (t.transportFailed || decide (a = .failed)) = false
      rw [hFine, Bool.false_or, decide_eq_false_iff_not]
      rintro rfl
      cases hSucceeds
    · refine .inl ⟨hQuiet, .inr ?_⟩
      cases hPhase : t.pipe.phase with
      | done ok =>
        cases ok with
        | true => rfl
        | false =>
          rw [hSound.failed hPhase] at hFine
          cases hFine
      | _ => simp [alive, hPhase] at hAlive
  obtain ⟨actions, s', hOwn, hRun, hRests, hEnd⟩ :=
    exec_progress _ hAdvance ⟨h, hWorks, rfl, rfl, rfl, rfl⟩
  obtain ⟨hSound, -, hControl, hData, hSentControl, hSentData⟩ := hRests
  refine ⟨actions, s', hOwn, hRun, ?_, hSentControl, hSentData, ?_⟩
  · rcases hEnd with ⟨hPhase, hNoControl, hNoData, -⟩ | hDone
    · exact hSound.drained (by simp [alive, hPhase]) hNoControl hNoData
        (hSound.shut.waits (.inr hPhase)) (by simp [unsent, hPhase])
    · exact hSound.ended hDone
  · intro hNoControl hNoData
    rcases hEnd with ⟨-, -, -, hSender⟩ | hDone
    · simp [hControl, hData, hNoControl, hNoData] at hSender
    · exact hDone

theorem sound_of_run {controlCapacity dataCapacity : Nat} {run : List WriterRunAction}
    (hRun : exec step (new controlCapacity dataCapacity) run = some s) :
    s.Sound :=
  exec_induction (fun _ _ _ h hStep => h.step hStep) (sound_new _ _) hRun

/-- **The writer under every arrival schedule.** Whatever arrives on the two queues and
whenever they are closed:

* the control frames are written in arrival order, and so are the data-queue frames of each
  stream; the bytes on the wire are the encodings of the logged frames in this order, each
  once;
* the writer returns `Ok` only when both queues have lost their senders and everything that
  arrived is written in full;
* it returns an error only after the transport failed, never because the fair queue is full;
* while the transport works, its own steps write everything that has arrived, and end the
  writer once both queues are closed. -/
theorem writes_each_frame_once (controlCapacity dataCapacity : Nat) (run : List WriterRunAction)
    (s : WriterRun)
    (hRun : exec step (new controlCapacity dataCapacity) run = some s) :
    takenFrom s.log .control <+: s.pipe.sentControl ∧
      (∀ k, onStream k (takenFrom s.log .data) <+: onStream k s.pipe.sentData) ∧
      s.pipe.bytesOut <+: encodeAll (s.log.map fun entry => entry.2.frame) ∧
      (s.pipe.phase = .done true → s.controlSenders = false ∧ s.dataSenders = false ∧ s.Drained) ∧
      (s.pipe.phase = .done false → s.transportFailed = true) ∧
      (s.transportFailed = false → ∃ actions s', (∀ a ∈ actions, WriterRunAction.writes a = true) ∧
          exec step s actions = some s' ∧ s'.Drained ∧
          s'.pipe.sentControl = s.pipe.sentControl ∧ s'.pipe.sentData = s.pipe.sentData ∧
          (s.controlSenders = false → s.dataSenders = false → s'.pipe.phase = .done true)) := by
  have h := sound_of_run hRun
  refine ⟨h.ordered.controlPrefix, h.ordered.dataPrefix, ?_, ?_, h.failed, drains_of_sound h⟩
  · rw [← startedFrames_of_logged h.ordered]
    exact h.framed.cut
  · intro hDone
    obtain ⟨hControl, hData, -⟩ := h.shut.ends (.inr hDone)
    have hNoControl := (h.shut.control hControl).1
    have hNoData := (h.shut.data hData).1
    exact ⟨by simpa using hNoControl, by simpa using hNoData, h.ended hDone⟩

namespace ClosedExample

def ping : Outbound := ⟨none, ⟨.ping, 0, 0, [], Frame.zero_flags, Frame.nil_fits, Frame.ping_scope⟩⟩

def data : Outbound := ⟨some 0, ⟨.data, 0, 1, [7], Frame.zero_flags, by decide, by decide⟩⟩

def endStream : Outbound :=
  ⟨some 0, ⟨.endStream, 0, 1, [], Frame.zero_flags, Frame.nil_fits, by decide⟩⟩

/-- Two data frames and a control frame arrive before the writer's first turn, and the queues
are closed, the data queue first. -/
def run : List WriterRunAction :=
  [.acquire data, .acquire endStream, .sendData 0, .sendControl ping, .sendData 0, .closeData,
    .closeControl]

end ClosedExample

theorem writes_each_frame_once_closed :
    ∃ s actions s', exec step (new 1 2) ClosedExample.run = some s ∧
      exec step s actions = some s' ∧ s'.pipe.phase = .done true ∧
      takenFrom s'.log .control = [ClosedExample.ping] ∧
      onStream 1 (takenFrom s'.log .data) = [ClosedExample.data, ClosedExample.endStream] := by
  obtain ⟨s, hs, hWorks, hControl, hData, hSentControl, hSentData⟩ :
      ∃ s, exec step (new 1 2) ClosedExample.run = some s ∧ s.transportFailed = false ∧
      s.controlSenders = false ∧ s.dataSenders = false ∧ s.pipe.sentControl = [ClosedExample.ping] ∧
      s.pipe.sentData = [ClosedExample.data, ClosedExample.endStream] := by decide +kernel
  obtain ⟨-, -, -, -, -, hDrains⟩ := writes_each_frame_once 1 2 ClosedExample.run s hs
  obtain ⟨actions, s', -, hExec, hDrained, hSameControl, hSameData, hDone⟩ := hDrains hWorks
  refine ⟨s, actions, s', hs, hExec, hDone hControl hData, ?_, ?_⟩
  · rw [hDrained.control, hSameControl, hSentControl]
  · rw [hDrained.data 1, hSameData, hSentData]
    rfl

end WriterRun

end TunnelProxy.Mux
