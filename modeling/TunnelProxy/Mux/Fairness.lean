import TunnelProxy.Common.FairRotation
import TunnelProxy.Mux.Writing

/-!
# Bounded priority and fairness of the writer

Control frames go first, but not more than eight of them while a data-queue frame is
scheduled; and the scheduled streams take turns. `Scheduling` is what a step of the writer
does to that order, and `Waiting` is the account of a frame that has come to the head of its
stream's FIFO: what was written since, the places before it and the control frames since the
last data-queue frame.

`writer_fair` — with `n` streams active it is among the next `n` data-queue frames, with at
most eight control frames before each of them, whatever keeps arriving; and by its own steps
the writer does write it.
-/

namespace TunnelProxy.Mux

open Protocol Common RoundRobin Transition List

namespace Pipeline

variable {p p' : Pipeline} {controlGone dataGone : Bool} {a : WriterAction}

/-- The control frames that count against the burst when the writer next looks at it: the
frame that is being written is counted, and a data-queue frame that is being written will
have reset the count. -/
def spent (p : Pipeline) : Nat :=
  match p.phase with
  | .writing _ true => 0
  | .writing _ false => p.controlBurst + 1
  | _ => p.controlBurst

/-- A step of the writer as the schedule sees it, with the frame it starts. -/
inductive Scheduling (p : Pipeline) : List (Queue × Outbound) → Pipeline → Prop where
  | control (o : Outbound) (p' : Pipeline)
      (hBurst : p.spent < maxControlFrameBurst ∨ p.scheduled.len = 0)
      (hSpent : p'.spent = p.spent + 1) (hSame : p'.scheduled = p.scheduled) :
      Scheduling p [(.control, o)] p'
  | data (o : Outbound) (p' : Pipeline) (hPop : p.scheduled.pop = some (o, p'.scheduled))
      (hSpent : p'.spent = 0) : Scheduling p [(.data, o)] p'
  | quiet (p' : Pipeline) (hSpent : p'.spent = p.spent)
      (hSchedule : p'.scheduled = p.scheduled ∨
        ∃ o : Outbound, p.scheduled.push o.streamId o = .ok p'.scheduled) : Scheduling p [] p'
  | stop (p' : Pipeline) (hDead : p'.alive = false) : Scheduling p [] p'

open WriterRun (record record_of_same record_of_writing)

theorem spent_of_between (h : p.between) : p.spent = p.controlBurst := by
  unfold between at h
  unfold spent
  cases hPhase : p.phase <;> simp [hPhase] at h ⊢

theorem Scheduling.silent (hStarted : p'.started = p.started) (h : Scheduling p [] p') :
    Scheduling p (record p p') p' := by
  rwa [record_of_same hStarted]

/-- A step between two frames that starts none. -/
theorem Scheduling.moved (hBetween : p.between) (hBetween' : p'.between)
    (hBurst : p'.controlBurst = p.controlBurst) (hStarted : p'.started = p.started)
    (hSchedule : p'.scheduled = p.scheduled ∨
      ∃ o : Outbound, p.scheduled.push o.streamId o = .ok p'.scheduled) :
    Scheduling p (record p p') p' := by
  refine .silent hStarted (.quiet p' ?_ hSchedule)
  rw [spent_of_between hBetween, spent_of_between hBetween', hBurst]

theorem Scheduling.stopped (p : Pipeline) (ok : Bool) :
    Scheduling p (record p (p.stop ok)) (p.stop ok) :=
  .silent rfl (.stop _ rfl)

/-- A control frame is started while the burst lasts, or when nothing is scheduled. -/
theorem burst_of_turn {bytes : List UInt8} (hShut : p.Shut controlGone dataGone)
    (h : p.turnWith controlGone dataGone = some p') (hWrites : p'.phase = .writing bytes false) :
    p.controlBurst < maxControlFrameBurst ∨ p.scheduled.len = 0 := by
  cases (turnWith_turned h).1 with
  | takesControl _ _ _ _ hPhase =>
    rcases hPhase with hPhase | ⟨-, hBurst⟩
    · exact .inr (hShut.waits (.inl hPhase))
    · exact hBurst
  | schedules _ _ _ _ _ _ _ hNext | closesControl _ _ _ _ hNext | closesData _ _ _ _ hNext =>
    rcases hNext with ⟨hPhase, rfl⟩ | ⟨-, rfl⟩
    · simp [hPhase] at hWrites
    · rcases phase_loopTop _ with hTop | hTop <;> cases hTop.symm.trans hWrites
  | _ => cases hWrites

theorem scheduling_wrote {n : Nat} (h : p.wrote n = some p') : Scheduling p (record p p') p' := by
  unfold wrote at h
  split at h
  · rename_i rest isData hPhase
    have hSpent : p.spent = if isData then 0 else p.controlBurst + 1 := by
      unfold spent
      rw [hPhase]
      cases isData <;> rfl
    split_ifs at h with hN hAll
    · cases h
      obtain ⟨_, hNext, hEq⟩ := loopTop_eq { p with
        outgoing := p.outgoing ++ rest.take n
        bytesOut := p.bytesOut ++ rest.take n
        controlBurst := if isData then 0 else p.controlBurst + 1 }
      rw [written, hEq]
      refine .silent rfl (.quiet _ ?_ (.inl rfl))
      rw [hSpent]
      rcases hNext with rfl | rfl <;> rfl
    · cases h
      refine .silent rfl (.quiet _ ?_ (.inl rfl))
      rw [hSpent]
      cases isData <;> rfl
  · cases h

/-- **Inversion.** -/
theorem scheduling (hShut : p.Shut controlGone dataGone)
    (h : p.stepWith controlGone dataGone a = some p') : Scheduling p (record p p') p' := by
  cases a with
  | turn =>
    cases stepWith_effect h with
    | startControl o rest _ hBetween =>
      have hSpent := spent_of_between hBetween
      rw [record_of_writing rfl rfl]
      refine .control o _ (hSpent ▸ burst_of_turn hShut h rfl) ?_ rfl
      rw [hSpent]
      rfl
    | startData o _ hPop =>
      rw [record_of_writing rfl rfl]
      exact .data o _ hPop rfl
    | schedule o _ _ _ hPush _ hNext hBetween =>
      refine .moved hBetween ?_ rfl rfl (.inr ⟨o, hPush⟩)
      rcases hNext with rfl | rfl <;> rfl
    | move _ hSame hBetween hBetween' hBurst =>
      exact .moved hBetween hBetween' hBurst hSame.started (.inl hSame.scheduled)
    | wrote _ _ _ hPhase => simp [stepWith, turnWith, hPhase] at h
    | stop ok => exact .stopped p ok
  | wrote => exact scheduling_wrote h
  | failed =>
    simp only [stepWith, failed] at h
    split at h <;> cases h
    · exact .stopped p false
    · exact .stopped p false
  | finished =>
    simp only [stepWith, finished] at h
    split at h <;> cases h
    exact .stopped p true

theorem alive_of_stepWith (h : p.stepWith controlGone dataGone a = some p') : p.alive := by
  cases stepWith_effect h with
  | startControl o rest hControl hBetween
  | schedule o rest scheduled hData hPush next hNext hBetween | move p' hSame hBetween =>
    exact alive_of_between hBetween
  | startData _ _ _ hPhase => simp [alive, hPhase]
  | wrote _ _ _ hPhase => simp [alive, hPhase]
  | stop _ hAlive => exact hAlive

end Pipeline

/-! ## A frame that waits -/

/-- The control frames among `entries` that nothing separates. -/
def ControlOnly (block : List (Queue × Outbound)) : Prop := ∀ e ∈ block, e.1 = .control

/-- What the writer may write ahead of the first frame of stream `k` when `n` streams are
active: frames of other streams, fewer than `n`, with at most eight control frames before each
of them and before the frame itself. -/
structure Timely (n : Nat) (k : StreamId) (entries : List (Queue × Outbound)) : Prop where
  others : onStream k (takenFrom entries .data) = []
  blocks : ∀ block, block <:+: entries → ControlOnly block → block.length ≤ maxControlFrameBurst
  data : (takenFrom entries .data).length < n
  control : (takenFrom entries .control).length ≤ maxControlFrameBurst * n

/-- The frame `o` is the first of stream `k` and has places before it in the rotation; the
control frames since the last data-queue frame count against the burst. -/
structure Standing (o : Outbound) (k : StreamId) (n : Nat) (entries : List (Queue × Outbound))
    (p : Pipeline) : Prop where
  head : ∃ rest, p.scheduled.items k = o :: rest
  place : (takenFrom entries .data).length + p.scheduled.1.active.idxOf k < n
  burst : ∃ recent, recent ≤ p.spent ∧ recent ≤ maxControlFrameBurst ∧
    (takenFrom entries .control).length ≤
      maxControlFrameBurst * (takenFrom entries .data).length + recent ∧
    ∀ block, block <:+ entries → ControlOnly block → block.length ≤ recent

section Step

variable {o c : Outbound} {k : StreamId} {n : Nat} {entries : List (Queue × Outbound)}
  {p p' : Pipeline}

theorem Timely.of_standing (hStanding : Standing o k n entries p)
    (hOthers : onStream k (takenFrom entries .data) = [])
    (hBlocks : ∀ block, block <:+: entries → ControlOnly block →
      block.length ≤ maxControlFrameBurst) : Timely n k entries := by
  obtain ⟨recent, -, hRecent, hControl, -⟩ := hStanding.burst
  have hPlace := hStanding.place
  refine ⟨hOthers, hBlocks, by omega, ?_⟩
  calc (takenFrom entries .control).length
      ≤ maxControlFrameBurst * (takenFrom entries .data).length + recent := hControl
    _ ≤ maxControlFrameBurst * (takenFrom entries .data).length + maxControlFrameBurst :=
        Nat.add_le_add_left hRecent _
    _ = maxControlFrameBurst * ((takenFrom entries .data).length + 1) := (Nat.mul_succ _ _).symm
    _ ≤ maxControlFrameBurst * n := Nat.mul_le_mul_left _ (by omega)

section

variable (h : Standing o k n entries p)
include h

theorem Standing.mem_active : k ∈ p.scheduled.1.active := by
  obtain ⟨_, hItems⟩ := h.head
  exact BoundedFairQueue.mem_active hItems

theorem Standing.scheduled : p.scheduled.len ≠ 0 := by
  obtain ⟨_, hItems⟩ := h.head
  intro hEmpty
  rw [BoundedFairQueue.items_of_len_zero hEmpty] at hItems
  cases hItems

omit h in
/-- A block at the end of a log that has just grown. -/
theorem block_concat {e : Queue × Outbound} {block : List (Queue × Outbound)}
    (h : block <:+ entries ++ [e]) (hBlock : ControlOnly block) :
    block = [] ∨ e.1 = .control ∧ ∃ shorter, block = shorter ++ [e] ∧ shorter <:+ entries ∧
      ControlOnly shorter := by
  rcases suffix_concat_iff.mp h with rfl | ⟨shorter, rfl, hSuffix⟩
  · exact .inl rfl
  · refine .inr ⟨hBlock e (by simp), shorter, rfl, hSuffix, fun x hx => ?_⟩
    exact hBlock x (mem_append_left _ hx)

theorem Standing.control (hTimely : Timely n k entries)
    (hBurst : p.spent < maxControlFrameBurst) (hSpent : p'.spent = p.spent + 1)
    (hSame : p'.scheduled = p.scheduled) :
    Timely n k (entries ++ [(.control, c)]) ∧ Standing o k n (entries ++ [(.control, c)]) p' := by
  obtain ⟨recent, _, -, _, hSuffix⟩ := h.burst
  have hData : takenFrom (entries ++ [(Queue.control, c)]) .data = takenFrom entries .data := by
    rw [takenFrom_append, takenFrom_other (by decide), append_nil]
  have hLonger : ∀ block, block <:+ entries ++ [(Queue.control, c)] → ControlOnly block →
      block.length ≤ recent + 1 := by
    intro _ hBlock hOnly
    rcases block_concat hBlock hOnly with rfl | ⟨-, shorter, rfl, hShorter, hOnly'⟩
    · exact Nat.zero_le _
    · rw [length_append]
      exact Nat.add_le_add_right (hSuffix shorter hShorter hOnly') 1
  have hStanding : Standing o k n (entries ++ [(.control, c)]) p' := by
    refine ⟨by rw [hSame]; exact h.head, by rw [hData, hSame]; exact h.place, recent + 1, by omega,
      by omega, ?_, hLonger⟩
    rw [hData, takenFrom_append, takenFrom_self, length_append, length_singleton]
    omega
  refine ⟨.of_standing hStanding (by rw [hData]; exact hTimely.others) ?_, hStanding⟩
  intro block hBlock hOnly
  rcases infix_concat_iff.mp hBlock with hBlock | hBlock
  · exact (hLonger block hBlock hOnly).trans (by omega)
  · exact hTimely.blocks block hBlock hOnly

/-- The turn of another stream: one place less, and the burst starts again. -/
theorem Standing.data (hTimely : Timely n k entries) {key : StreamId}
    (hTurn : Turn p.scheduled.1.active (some key) p'.scheduled.1.active) (hNe : key ≠ k)
    (hKey : c.streamId = key) (hItems : p'.scheduled.items k = p.scheduled.items k) :
    Timely n k (entries ++ [(.data, c)]) ∧ Standing o k n (entries ++ [(.data, c)]) p' := by
  obtain ⟨_, -, _, hControl, -⟩ := h.burst
  have hServed : some key ≠ some k := fun hEq => hNe (Option.some.inj hEq)
  have hPlace := hTurn.idxOf h.mem_active hServed
  rw [if_neg (by simp)] at hPlace
  have hNone : takenFrom (entries ++ [(Queue.data, c)]) .control = takenFrom entries .control := by
    rw [takenFrom_append, takenFrom_other (by decide), append_nil]
  have hMore : (takenFrom (entries ++ [(Queue.data, c)]) .data).length =
      (takenFrom entries .data).length + 1 := by
    rw [takenFrom_append, takenFrom_self, length_append]
    rfl
  have hLast : ∀ block, block <:+ entries ++ [(Queue.data, c)] → ControlOnly block →
      block.length ≤ 0 := by
    intro _ hBlock hOnly
    rcases block_concat hBlock hOnly with rfl | ⟨hControl, -⟩
    · exact Nat.le_refl _
    · cases hControl
  have hStanding : Standing o k n (entries ++ [(.data, c)]) p' := by
    have hBefore := h.place
    refine ⟨by rw [hItems]; exact h.head, by omega, 0, Nat.zero_le _, Nat.zero_le _, ?_, hLast⟩
    rw [hNone, hMore, Nat.mul_succ]
    omega
  refine ⟨.of_standing hStanding ?_ ?_, hStanding⟩
  · rw [takenFrom_append, takenFrom_self, onStream_append, hTimely.others, onStream_singleton,
      if_neg (by rw [hKey]; exact hNe)]
    rfl
  · intro block hBlock hOnly
    rcases infix_concat_iff.mp hBlock with hBlock | hBlock
    · exact (hLast block hBlock hOnly).trans (Nat.zero_le _)
    · exact hTimely.blocks block hBlock hOnly

/-- Frames that are scheduled meanwhile queue behind it, in its stream and in the rotation. -/
theorem Standing.quiet (hSpent : p'.spent = p.spent)
    (hSchedule : p'.scheduled = p.scheduled ∨
      ∃ c : Outbound, p.scheduled.push c.streamId c = .ok p'.scheduled) :
    Standing o k n entries p' := by
  have hBurst := h.burst
  rw [← hSpent] at hBurst
  rcases hSchedule with hSame | ⟨c, hPush⟩
  · exact ⟨by rw [hSame]; exact h.head, by rw [hSame]; exact h.place, hBurst⟩
  · obtain ⟨rest, hItems⟩ := h.head
    refine ⟨?_, ?_, hBurst⟩
    · rw [BoundedFairQueue.items_push hPush, hItems]
      split
      · exact ⟨rest ++ [c], rfl⟩
      · exact ⟨rest, rfl⟩
    · have hPlace := (BoundedFairQueue.push_turn hPush).idxOf h.mem_active (by simp)
      rw [if_pos rfl, Nat.add_zero] at hPlace
      rw [hPlace]
      exact h.place

end

end Step

namespace WriterRun

/-- A step of a sender leaves the writer alone; the others are the writer's own. -/
inductive OneTurn (s : WriterRun) : WriterRunAction → WriterRun → Prop where
  | senders {a : WriterRunAction} {s' : WriterRun} (hLog : s'.log = s.log)
      (hPhase : s'.pipe.phase = s.pipe.phase)
      (hBurst : s'.pipe.controlBurst = s.pipe.controlBurst)
      (hSame : s'.pipe.scheduled = s.pipe.scheduled)
      (hFailed : s'.transportFailed = s.transportFailed) : OneTurn s a s'
  | writer (a : Pipeline.WriterAction) (p' : Pipeline)
      (hTurn : s.pipe.stepWith (!s.controlSenders) (!s.dataSenders) a = some p') :
      OneTurn s (.writer a) { s with
        pipe := p'
        log := s.log ++ record s.pipe p'
        transportFailed := s.transportFailed || a = .failed }

variable {a : WriterRunAction}

theorem step_turn {s s' : WriterRun} (hStep : s.step a = some s') : OneTurn s a s' := by
  cases a with
  | sendControl =>
    simp only [WriterRun.step] at hStep
    split_ifs at hStep
    obtain ⟨_, hPush, rfl⟩ := Option.map_eq_some_iff.mp hStep
    obtain ⟨-, rfl⟩ := Pipeline.pushControl_eq hPush
    exact .senders rfl rfl rfl rfl rfl
  | acquire | abandon | closeData =>
    simp only [WriterRun.step] at hStep
    split_ifs at hStep
    cases hStep
    exact .senders rfl rfl rfl rfl rfl
  | sendData =>
    simp only [WriterRun.step] at hStep
    split at hStep
    · cases hStep
    · obtain ⟨_, hPush, rfl⟩ := Option.map_eq_some_iff.mp hStep
      obtain ⟨-, rfl⟩ := Pipeline.pushData_eq hPush
      exact .senders rfl rfl rfl rfl rfl
  | closeControl =>
    cases hStep
    exact .senders rfl rfl rfl rfl rfl
  | writer a =>
    obtain ⟨p', hTurn, rfl⟩ := Option.map_eq_some_iff.mp hStep
    exact .writer a p' hTurn

/-- Writing does not break the transport. -/
theorem works_of_writes {s s' : WriterRun} {actions : List WriterRunAction}
    (hOwn : ∀ a ∈ actions, WriterRunAction.writes a = true)
    (hRun : exec step s actions = some s') (hWorks : s.transportFailed = false) :
    s'.transportFailed = false := by
  refine exec_induction_guarded (P := fun t => t.transportFailed = false)
    (G := fun _ a => WriterRunAction.writes a = true) ?_ hWorks
    (guarded_of_forall hOwn) hRun
  intro t a _ hWorks hWrites hStep
  cases step_turn hStep with
  | senders _ _ _ _ hFailed => exact hFailed.trans hWorks
  | writer a =>
    show (t.transportFailed || decide (a = .failed)) = false
    rw [hWorks, Bool.false_or, decide_eq_false_iff_not]
    rintro rfl
    cases hWrites

/-- The frame has not been written: it stands in the schedule, or the transport failed and the
writer is gone. -/
structure Waiting (o : Outbound) (k : StreamId) (n : Nat) (entries : List (Queue × Outbound))
    (s : WriterRun) : Prop where
  timely : Timely n k entries
  standing : s.pipe.alive → Standing o k n entries s.pipe
  lost : s.pipe.alive ∨ s.transportFailed = true

variable {o : Outbound} {k : StreamId} {n : Nat} {entries : List (Queue × Outbound)}
  {s s' : WriterRun}

/-- What the senders do leaves the schedule alone. -/
theorem Waiting.senders (h : Waiting o k n entries s) (hPhase : s'.pipe.phase = s.pipe.phase)
    (hBurst : s'.pipe.controlBurst = s.pipe.controlBurst)
    (hSame : s'.pipe.scheduled = s.pipe.scheduled)
    (hFailed : s'.transportFailed = s.transportFailed) : Waiting o k n entries s' := by
  have hAlive : s'.pipe.alive = s.pipe.alive := by rw [Pipeline.alive, Pipeline.alive, hPhase]
  have hSpent : s'.pipe.spent = s.pipe.spent := by
    rw [Pipeline.spent, Pipeline.spent, hPhase, hBurst]
  refine ⟨h.timely, fun hRuns => ?_, by rw [hAlive, hFailed]; exact h.lost⟩
  exact (h.standing (hAlive ▸ hRuns)).quiet hSpent (.inl hSame)

theorem Waiting.writer {a : Pipeline.WriterAction} {p' : Pipeline} (hSound : s.Sound)
    (h : Waiting o k n entries s)
    (hStep : s.pipe.stepWith (!s.controlSenders) (!s.dataSenders) a = some p')
    (hSound' : Sound { s with
      pipe := p'
      log := s.log ++ record s.pipe p'
      transportFailed := s.transportFailed || a = .failed }) :
    record s.pipe p' = [(.data, o)] ∨ Waiting o k n (entries ++ record s.pipe p')
      { s with
        pipe := p'
        log := s.log ++ record s.pipe p'
        transportFailed := s.transportFailed || a = .failed } := by
  have hAlive := Pipeline.alive_of_stepWith hStep
  have hStanding := h.standing hAlive
  obtain ⟨-, _, hEnds⟩ := hSound.shut.stepWith hSound.room hStep
  have hLost : p'.alive ∨ (s.transportFailed || a = .failed) = true := by
    cases hPhase : p'.phase with
    | done ok =>
      cases ok with
      | true =>
        -- the writer shuts down with nothing scheduled only
        have hShutdown := (hEnds hPhase).1
        exact absurd (hSound.shut.ends (.inl hShutdown)).2.2 hStanding.scheduled
      | false => exact .inr (hSound'.failed hPhase)
    | _ => exact .inl (by simp [Pipeline.alive, hPhase])
  have hScheduling := Pipeline.scheduling hSound.shut hStep
  generalize record s.pipe p' = started at hScheduling ⊢
  cases hScheduling with
  | control _ _ hBurst hSpent hSame =>
    have hBurst := hBurst.resolve_right hStanding.scheduled
    obtain ⟨hTimely, hNext⟩ := hStanding.control h.timely hBurst hSpent hSame
    exact .inr ⟨hTimely, fun _ => hNext, hLost⟩
  | data c _ hPop =>
    obtain ⟨key, hTurn, hHead, hRest⟩ := BoundedFairQueue.pop_turn hPop
    by_cases hKey : key = k
    · obtain ⟨_, hItems⟩ := hStanding.head
      rw [hKey, hItems] at hHead
      rw [(List.cons.inj hHead).1]
      exact .inl rfl
    · have hStream : c.streamId = key := by
        have hSent : c ∈ onStream key s.pipe.sentData := by
          rw [← hSound.ordered.data hAlive key, hHead]
          exact mem_append_left _ (mem_append_right _ mem_cons_self)
        simpa using (mem_filter.mp hSent).2
      obtain ⟨hTimely, hNext⟩ :=
        hStanding.data h.timely hTurn hKey hStream (hRest k (Ne.symm hKey))
      exact .inr ⟨hTimely, fun _ => hNext, hLost⟩
  | quiet _ hSpent hSchedule =>
    rw [append_nil]
    exact .inr ⟨h.timely, fun _ => hStanding.quiet hSpent hSchedule, hLost⟩
  | stop _ hDead =>
    rw [append_nil]
    exact .inr ⟨h.timely, fun hRuns => absurd hRuns (by simp [hDead]), hLost⟩

/-- **Step.** -/
theorem Waiting.step (hSound : s.Sound) (h : Waiting o k n entries s) (hStep : s.step a = some s') :
    ∃ more, s'.log = s.log ++ more ∧
      (more = [(.data, o)] ∨ Waiting o k n (entries ++ more) s') := by
  have hSound' := hSound.step hStep
  cases step_turn hStep with
  | senders hLog hPhase hBurst hSame hFailed =>
    refine ⟨[], by rw [hLog, append_nil], .inr ?_⟩
    rw [append_nil]
    exact h.senders hPhase hBurst hSame hFailed
  | writer _ p' hTurn => exact ⟨record s.pipe p', rfl, h.writer hSound hTurn hSound'⟩

theorem step_log (hStep : s.step a = some s') : ∃ more, s'.log = s.log ++ more := by
  cases step_turn hStep with
  | senders hLog => exact ⟨[], by rw [hLog, append_nil]⟩
  | writer _ p' => exact ⟨record s.pipe p', rfl⟩

/-- Since `start`, the frame is still waiting, or was written in time. -/
def InTime (o : Outbound) (k : StreamId) (n : Nat) (start s : WriterRun) : Prop :=
  ∃ entries, s.log = start.log ++ entries ∧ (Waiting o k n entries s ∨
      ∃ before after, entries = before ++ (.data, o) :: after ∧ Timely n k before)

/-- **Run.** -/
theorem InTime.run {start : WriterRun} {more : List WriterRunAction} (hSound : s.Sound)
    (h : InTime o k n start s) (hRun : exec step s more = some s') :
    s'.Sound ∧ InTime o k n start s' := by
  refine exec_induction (P := fun t => t.Sound ∧ InTime o k n start t) ?_ ⟨hSound, h⟩ hRun
  rintro _ _ _ ⟨hSound, entries, hLog, hCase⟩ hStep
  refine ⟨hSound.step hStep, ?_⟩
  rcases hCase with hWaiting | ⟨before, after, rfl, hTimely⟩
  · obtain ⟨more, hMore, hNext⟩ := hWaiting.step hSound hStep
    refine ⟨entries ++ more, by rw [hMore, hLog, append_assoc], ?_⟩
    rcases hNext with rfl | hNext
    · exact .inr ⟨entries, [], rfl, hWaiting.timely⟩
    · exact .inl hNext
  · obtain ⟨more, hMore⟩ := step_log hStep
    refine ⟨before ++ (.data, o) :: (after ++ more), by rw [hMore, hLog]; simp, .inr ?_⟩
    exact ⟨before, after ++ more, rfl, hTimely⟩

theorem waiting_of_head {rest : List Outbound} (hSound : s.Sound)
    (hHead : s.pipe.scheduled.items k = o :: rest) :
    Waiting o k s.pipe.scheduled.activeKeys [] s := by
  have hPlace : s.pipe.scheduled.1.active.idxOf k < s.pipe.scheduled.activeKeys :=
    idxOf_lt_length_iff.mpr (BoundedFairQueue.mem_active hHead)
  have hStanding : Standing o k s.pipe.scheduled.activeKeys [] s.pipe := by
    refine ⟨⟨rest, hHead⟩, by simpa using hPlace, 0, Nat.zero_le _, Nat.zero_le _, by simp, ?_⟩
    intro _ hBlock _
    rw [suffix_nil.mp hBlock]
    exact Nat.le_refl 0
  refine ⟨.of_standing hStanding rfl ?_, fun _ => hStanding, ?_⟩
  · intro _ hBlock _
    rw [infix_nil.mp hBlock]
    exact Nat.zero_le _
  · cases hPhase : s.pipe.phase with
    | done ok =>
      cases ok with
      | true => exact absurd (hSound.shut.ends (.inr hPhase)).2.2 hStanding.scheduled
      | false => exact .inr (hSound.failed hPhase)
    | _ => exact .inl (by simp [Pipeline.alive, hPhase])

/-- A frame that still stands in the schedule has not been drained. -/
theorem Waiting.not_drained (hSound : s.Sound) (h : Waiting o k n entries s)
    (hWorks : s.transportFailed = false) : ¬ s.Drained := by
  intro hDrained
  have hAlive : s.pipe.alive := h.lost.resolve_right (by simp [hWorks])
  obtain ⟨_, hItems⟩ := (h.standing hAlive).head
  have hOrder := hSound.ordered.data hAlive k
  rw [hItems, ← hDrained.data k, append_assoc] at hOrder
  simp at hOrder

/-- **Bounded control priority and fairness.** Whatever arrives on the two queues, take a
state in which `o` is the first data-queue frame of stream `k` in the scheduler, with
`activeKeys` streams active.

* In whatever way the run goes on, as long as `o` is not written, and also ahead of `o`, the
  writer writes fewer than `activeKeys` data-queue frames, none of them of stream `k`, with at
  most eight control frames before each of them and before `o`, so at most eight for each
  active stream.
* As long as the transport works, the writer's own steps write `o`. -/
theorem writer_fair (controlCapacity dataCapacity : Nat) (run : List WriterRunAction)
    (s : WriterRun) (hRun : exec step (new controlCapacity dataCapacity) run = some s)
    (k : StreamId) (o : Outbound) (rest : List Outbound)
    (hHead : s.pipe.scheduled.items k = o :: rest) (more : List WriterRunAction) (s' : WriterRun)
    (hMore : exec step s more = some s') :
    (∃ entries, s'.log = s.log ++ entries ∧ (Timely s.pipe.scheduled.activeKeys k entries ∨
        ∃ before after, entries = before ++ (.data, o) :: after ∧
          Timely s.pipe.scheduled.activeKeys k before)) ∧
      (s'.transportFailed = false → ∃ actions s'',
        (∀ a ∈ actions, WriterRunAction.writes a = true) ∧
          exec step s' actions = some s'' ∧
          ∃ before after, s''.log = s.log ++ before ++ (.data, o) :: after ∧
            Timely s.pipe.scheduled.activeKeys k before) := by
  have hSound := sound_of_run hRun
  have hStart : InTime o k s.pipe.scheduled.activeKeys s s :=
    ⟨[], (append_nil _).symm, .inl (waiting_of_head hSound hHead)⟩
  obtain ⟨hSound', hInTime⟩ := hStart.run hSound hMore
  constructor
  · obtain ⟨entries, hLog, hCase⟩ := hInTime
    exact ⟨entries, hLog, hCase.imp_left Waiting.timely⟩
  · intro hWorks
    obtain ⟨actions, s'', hOwn, hDrains, hDrained, -⟩ := drains_of_sound hSound' hWorks
    refine ⟨actions, s'', hOwn, hDrains, ?_⟩
    obtain ⟨hSound'', _, hLog, hCase⟩ := hInTime.run hSound' hDrains
    rcases hCase with hWaiting | ⟨before, after, rfl, hTimely⟩
    · refine absurd hDrained (hWaiting.not_drained hSound'' ?_)
      exact works_of_writes hOwn hDrains hWorks
    · exact ⟨before, after, by rw [hLog, append_assoc], hTimely⟩

namespace TwoStreams

def first : Outbound := ClosedExample.data

def second : Outbound := ⟨some 1, ⟨.data, 0, 3, [8], Frame.zero_flags, by decide, by decide⟩⟩

/-- The two frames are scheduled, that of stream 3 last, -/
def run : List WriterRunAction :=
  [.acquire first, .sendData 0, .acquire second, .sendData 0, .writer .turn, .writer .turn]

/-- and a control frame overtakes them both. -/
def more : List WriterRunAction :=
  [.sendControl ClosedExample.ping, .writer .turn, .writer .turn]

end TwoStreams

theorem writer_fair_second :
    ∃ s s' actions s'', exec step (new 1 2) TwoStreams.run = some s ∧
      s.pipe.scheduled.activeKeys = 2 ∧ exec step s TwoStreams.more = some s' ∧
      s'.log = [(.control, ClosedExample.ping)] ∧ exec step s' actions = some s'' ∧
      ∃ before after, s''.log = s.log ++ before ++ (.data, TwoStreams.second) :: after ∧
        Timely 2 3 before := by
  obtain ⟨s, hs, hHead, hKeys, s', hs', hWorks, hLog⟩ : ∃ s,
      exec step (new 1 2) TwoStreams.run = some s ∧
      s.pipe.scheduled.items 3 = [TwoStreams.second] ∧ s.pipe.scheduled.activeKeys = 2 ∧
      ∃ s', exec step s TwoStreams.more = some s' ∧ s'.transportFailed = false ∧
        s'.log = [(.control, ClosedExample.ping)] := by decide +kernel
  obtain ⟨actions, s'', -, hExec, hWritten⟩ :=
    (writer_fair 1 2 TwoStreams.run s hs 3 TwoStreams.second [] hHead TwoStreams.more s' hs').2
      hWorks
  rw [hKeys] at hWritten
  exact ⟨s, s', actions, s'', hs, hKeys, hs', hLog, hExec, hWritten⟩

end WriterRun

end TunnelProxy.Mux
