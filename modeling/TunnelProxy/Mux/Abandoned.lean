import TunnelProxy.Mux.Teardown

/-!
# What a failed Edge session leaves behind

When `run_edge_session` returns an error, the writer and the stream tasks are left to
themselves: the handle of the writer is dropped, which does not cancel it, and no stream task
is aborted. The read half of the transport is gone, the write half is with the writer.

A transport takes a bounded number of bytes for a peer that does not read. If what the writer
and the tasks still have to send is more than that, the writer waits in its write for ever, and
the tasks wait for its permits (`failure_leaves_writer`): neither the transport nor the ingress
sockets are released. If it fits, or the writer has ended already, all of them end without any
step of the Agent (`failure_leaves_nothing`).

* `Core.debt` — the bytes that are, or may still be, on their way to the Agent.
* `Core.debt_step` — only what is read from an ingress socket adds to them.
-/

namespace TunnelProxy.Mux

open Protocol Common Std Transition List Pipeline BoundedFairQueue Mux.Core Option

/-! ## Bytes on their way -/

namespace Outbound

/-- The bytes of the frame on the wire. -/
def size (o : Outbound) : Nat := o.frame.wire.length

end Outbound

theorem length_wire (f : Frame) : f.wire.length = headerSize + f.payload.length := by
  rw [Frame.wire, length_append, length_encodeHeader]

variable {frame : Frame}

namespace Pipeline

variable {p p' : Pipeline} {origin : Option Nat}

/-- The bytes that were accepted and have not been carried away. -/
def backlog (p : Pipeline) : Nat :=
  p.outgoing.length + p.unsent.length + (p.control.map Outbound.size).sum +
    (p.data.map Outbound.size).sum + p.scheduled.weight Outbound.size

/-- The writer adds nothing to the backlog. -/
theorem backlog_effect {gone : Bool} (h : Effect p gone p') : p'.backlog ≤ p.backlog := by
  cases h with
  | startControl o rest hControl hBetween =>
    -- the frame goes from the queue to the bytes to be written
    have hUnsent := unsent_of_between hBetween
    unfold backlog
    rw [hUnsent, hControl]
    show p.outgoing.length + o.frame.wire.length + (rest.map Outbound.size).sum +
      (p.data.map Outbound.size).sum + p.scheduled.weight Outbound.size ≤ _
    rw [map_cons, sum_cons, length_nil, Outbound.size]
    omega
  | startData o scheduled hPop hPhase =>
    have hUnsent : p.unsent = [] := by simp [unsent, hPhase]
    have hWeight := weight_pop hPop Outbound.size
    unfold backlog
    rw [hUnsent, hWeight]
    show p.outgoing.length + o.frame.wire.length + (p.control.map Outbound.size).sum +
      (p.data.map Outbound.size).sum + scheduled.weight Outbound.size ≤ _
    rw [length_nil, Outbound.size]
    omega
  | schedule _ rest scheduled hData hPush next hNext hBetween =>
    have hWeight := weight_push hPush Outbound.size
    have hUnsent : unsent { p with data := rest, scheduled, phase := next } = [] := by
      rcases hNext with rfl | rfl <;> rfl
    unfold backlog
    rw [hUnsent, unsent_of_between hBetween, hData]
    show p.outgoing.length + _ + (p.control.map Outbound.size).sum + (rest.map Outbound.size).sum +
      scheduled.weight Outbound.size ≤ _
    rw [hWeight, map_cons, sum_cons]
    omega
  | move _ hSame hBetween hBetween' =>
    unfold backlog
    rw [unsent_of_between hBetween, unsent_of_between hBetween', hSame.outgoing, hSame.control,
      hSame.data, hSame.scheduled]
  | wrote n rest _ hPhase _ hLen p' hSame _ hNext =>
    have hUnsent : p.unsent = rest := by simp [unsent, hPhase]
    have hUnsent' : p'.unsent.length = rest.length - n := by
      rcases hNext with ⟨-, hPhase'⟩ | ⟨hAll, hPhase' | hPhase'⟩ <;> simp [unsent, hPhase']
      all_goals omega
    unfold backlog
    rw [hSame.control, hSame.data, hSame.scheduled, hSame.outgoing, hUnsent, hUnsent']
    show (p.outgoing ++ rest.take n).length + (rest.length - n) +
      (p.control.map Outbound.size).sum + (p.data.map Outbound.size).sum +
      p.scheduled.weight Outbound.size ≤ _
    rw [length_append, length_take_of_le hLen]
    omega
  | stop _ _ =>
    show p.outgoing.length + 0 + 0 + 0 + 0 ≤ _
    unfold backlog
    omega

theorem backlog_pushControl (h : p.pushControl ⟨origin, frame⟩ = some p') :
    p'.backlog = p.backlog + frame.wire.length := by
  obtain ⟨-, rfl⟩ := pushControl_eq h
  simp only [backlog, unsent, map_append, sum_append, map_singleton,
    sum_singleton, Outbound.size]
  omega

theorem backlog_depart (n : Nat) : (p.depart n).backlog ≤ p.backlog := by
  have hLen : (p.outgoing.drop n).length ≤ p.outgoing.length := by
    rw [length_drop]
    omega
  unfold backlog
  show (p.outgoing.drop n).length + p.unsent.length + (p.control.map Outbound.size).sum +
    (p.data.map Outbound.size).sum + p.scheduled.weight Outbound.size ≤ _
  omega

/-- A write that stays within the backlog. -/
theorem wrote_le_backlog {gone : Bool} {n : Nat} (h : p.step gone (.wrote n) = some p') :
    p.outgoing.length + n ≤ p.backlog := by
  simp only [step, wrote] at h
  split at h
  · rename_i rest isData hPhase
    split_ifs at h with hLen
    all_goals
      unfold backlog
      rw [show p.unsent = rest by simp [unsent, hPhase]]
      omega
  · cases h

end Pipeline

/-- The bytes that an event of a stream task adds to what the task has to send. -/
def TaskEvent.intake : TaskEvent → Nat
  | .read chunk => headerSize + chunk.length
  | .readEof => headerSize
  | _ => 0

namespace StreamTask

variable {t t' : StreamTask} {e : TaskEvent}

/-- A reset has the code as its payload. -/
def resetSize : Nat := headerSize + 2

/-- The bytes the task may still send if it reads nothing more from its socket: the frame it
waits to send, and a reset. -/
def owes (t : StreamTask) : Nat :=
  match t.phase with
  | .sendOpen | .connecting | .sendAck => headerSize + resetSize
  | .sendData frame => frame.wire.length + resetSize
  | .closing | .ended => 0
  | _ => resetSize

/-- What an event hands over to the writer. -/
def hands (t : StreamTask) : TaskEvent → Nat
  | .sent => match t.pendingSend with
    | some (.control frame) | some (.data frame) => frame.wire.length
    | _ => 0
  | _ => 0

theorem length_openFrame (t : StreamTask) : t.openFrame.wire.length = headerSize := by
  rw [length_wire]
  rfl

theorem length_resetFrame (t : StreamTask) (code : StreamResetCode) :
    (t.resetFrame code).wire.length = resetSize := by
  rw [length_wire, resetSize]
  exact congrArg _ code.length_toBeBytes

theorem owes_loopTop (t : StreamTask) : t.loopTop.owes ≤ resetSize := by
  unfold loopTop
  split
  · exact Nat.zero_le _
  · exact Nat.le_refl _

theorem owes_onFrame (h : t.onFrame frame = some t') : t'.owes ≤ resetSize := by
  cases (onFrame_effect h).2 with
  | opened | reset | writes | ended => exact Nat.le_refl _
  | closed => exact Nat.zero_le _
  | empty => exact owes_loopTop t

theorem owes_of_live (h : t.live) : resetSize ≤ t.owes := by
  cases hPhase : t.phase <;> simp [live, hPhase] at h <;> simp [owes, hPhase]

theorem hands_of_ne (he : e ≠ .sent) : t.hands e = 0 := by
  cases e <;> first | rfl | exact absurd rfl he

/-- **What a task hands over it no longer owes**, and only what it reads is added. -/
theorem owes_step (h : t.step e = some t') : t'.owes + t.hands e ≤ t.owes + e.intake := by
  cases step_move h with
  | read chunk _ hPhase =>
    simp only [owes, hPhase, hands, TaskEvent.intake, length_wire]
    show headerSize + chunk.length + resetSize + 0 ≤ _
    omega
  | readEof hPhase =>
    simp only [owes, hPhase, hands, TaskEvent.intake, length_wire]
    show headerSize + 0 + resetSize + 0 ≤ _
    omega
  | sentData frame hPhase =>
    have hTop := owes_loopTop { t with sentData := t.sentData ++ [frame] }
    have hOwes : t.owes = frame.wire.length + resetSize := by simp only [owes, hPhase]
    simp only [hands, pendingSend, hPhase] at hTop ⊢
    omega
  | opened _ hPhase =>
    rcases hPhase with ⟨hPhase, rfl⟩ | ⟨hPhase, rfl⟩
    all_goals
      simp only [hands, pendingSend, hPhase, length_openFrame, owes]
      omega
  | recv _ _ _ _ hFrame =>
    have hNext := owes_onFrame hFrame
    have hOwes : resetSize ≤ t.owes := owes_of_live (onFrame_pending hFrame).1
    show t'.owes + 0 ≤ t.owes + 0
    omega
  | written n rest hPhase | shutdownOk hPhase =>
    have hOwes : resetSize ≤ t.owes := owes_of_live (by simp [live, hPhase])
    exact Nat.le_trans (owes_loopTop _) hOwes
  | writing _ _ hPhase | connected hPhase => simp [owes, hPhase, hands]
  | finish _ code he hPhase =>
    rcases he with rfl | rfl
    · simp only [hands, pendingSend, hPhase, length_resetFrame, owes, finish]
      omega
    · exact Nat.zero_le _
  | drop _ he hPhase =>
    rcases he with rfl | rfl <;> simp [hands, pendingSend, hPhase, owes, StreamTask.drop]
  | close _ _ _ he =>
    rw [hands_of_ne he]
    exact Nat.zero_le _
  | reset _ _ _ _ he hLive =>
    rw [hands_of_ne he]
    exact Nat.le_trans (owes_of_live hLive) (Nat.le_add_right _ _)

theorem not_writing_loopTop (t : StreamTask) (rest : List UInt8) :
    t.loopTop.phase ≠ .writing rest := by
  unfold loopTop
  split <;> simp [finish]

/-- `write_all` is at work only as long as it has bytes. -/
theorem writes_something_onFrame (h : t.onFrame frame = some t') :
    ∀ rest, t'.phase = .writing rest → rest ≠ [] := by
  intro rest hWriting
  cases (onFrame_effect h).2 with
  | writes _ _ hSome =>
    cases hWriting
    exact hSome
  | empty => exact absurd hWriting (not_writing_loopTop _ _)
  | _ => cases hWriting

theorem writes_something_step (h : t.step e = some t') :
    ∀ rest, t'.phase = .writing rest → rest ≠ [] := by
  intro rest hWriting
  cases step_move h with
  | recv _ _ _ _ hFrame => exact writes_something_onFrame hFrame rest hWriting
  | sentData | written | shutdownOk => exact absurd hWriting (not_writing_loopTop _ _)
  | writing n _ _ hMore =>
    cases hWriting
    rw [Ne, drop_eq_nil_iff]
    omega
  | opened _ hPhase => rcases hPhase with ⟨-, rfl⟩ | ⟨-, rfl⟩ <;> cases hWriting
  | _ => cases hWriting

end StreamTask

namespace Core

variable {c c' : Core} {a : CoreAction}

/-- What an action adds to the bytes a session has to send. -/
def CoreAction.intake : CoreAction → Nat
  | .task _ e => e.intake
  | _ => 0

/-- The frame the dispatch loop waits to send. -/
def owes (c : Core) : Nat :=
  match c.dispatch with
  | .sending frame => frame.wire.length
  | _ => 0

/-- The bytes that are, or may still be, on their way to the peer. -/
def debt (c : Core) : Nat :=
  c.pipe.backlog + (c.tasks.map StreamTask.owes).sum + c.owes

/-- A task hands over `handed` bytes after it took in `intake`. -/
theorem debt_setTask {i handed intake : Nat} {t t' : StreamTask} (hTask : c.tasks[i]? = some t)
    (hOwes : t'.owes + handed ≤ t.owes + intake) (hTasks : c'.tasks = c.tasks.set i t')
    (hDispatch : c'.dispatch = c.dispatch) (hPipe : c'.pipe.backlog = c.pipe.backlog + handed) :
    c'.debt ≤ c.debt + intake := by
  have hSum := IndexMap.sum_map_set (f := StreamTask.owes) t' hTask
  unfold debt owes
  rw [hTasks, hPipe, hDispatch]
  omega

theorem debt_pipe {pipe : Pipeline} (hLe : pipe.backlog ≤ c.pipe.backlog) :
    ({ c with pipe := pipe } : Core).debt ≤ c.debt := by
  show pipe.backlog + (c.tasks.map StreamTask.owes).sum + c.owes ≤ _
  unfold debt
  omega

/-- **Only what is read from an ingress socket adds to the debt.** -/
theorem debt_step (h : c.step a = some c') : c'.debt ≤ c.debt + a.intake := by
  cases step_effect h with
  | task _ t _ e hTask hStep hEvent =>
    have hOwes := StreamTask.owes_step hStep
    rw [StreamTask.hands_of_ne hEvent] at hOwes
    apply debt_setTask hTask hOwes <;> rfl
  | control _ t _ frame _ hTask hStep hSend hPush =>
    have hOwes := StreamTask.owes_step hStep
    have hHands : t.hands .sent = frame.wire.length := by simp [StreamTask.hands, hSend]
    rw [hHands] at hOwes
    apply debt_setTask hTask hOwes
    · rfl
    · rfl
    · exact backlog_pushControl hPush
  | data _ t _ frame _ hTask hStep hSend hPush =>
    have hOwes := StreamTask.owes_step hStep
    have hHands : t.hands .sent = frame.wire.length := by simp [StreamTask.hands, hSend]
    rw [hHands] at hOwes
    apply debt_setTask hTask hOwes
    · rfl
    · rfl
    · obtain ⟨-, rfl⟩ := pushData_eq hPush
      simp only [backlog, unsent, map_append, sum_append, map_singleton, sum_singleton,
        Outbound.size]
      omega
  | closed _ t _ hTask hStep hSend =>
    have hOwes := StreamTask.owes_step hStep
    have hHands : t.hands .sent = 0 := by simp [StreamTask.hands, hSend]
    rw [hHands] at hOwes
    apply debt_setTask hTask hOwes <;> rfl
  | abort _ t hTask =>
    have hOwes : t.drop.owes + 0 ≤ t.owes + 0 := Nat.zero_le _
    apply debt_setTask hTask hOwes <;> rfl
  | writer _ _ hStep => exact debt_pipe (backlog_effect (Pipeline.step_effect hStep))
  | arrive | arriveEof => exact Nat.le_refl _
  | depart n => exact debt_pipe (backlog_depart n)

/-- The step that ends the loop does not add to the debt, and does not end the writer. -/
theorem SessionEffect.debt_leaves {turn : Turn} {next next' : UInt32}
    (h : SessionEffect c turn next next' c') (hLoop : c.dispatch.looping)
    (hLeft : c'.dispatch.looping = false) :
    c'.debt ≤ c.debt ∧ c'.pipe.alive = c.pipe.alive := by
  obtain ⟨-, hTasks, -, -, hPipe⟩ := h.leaves hLoop hLeft
  have hOwn : c'.owes = 0 := by
    unfold owes
    cases hDispatch : c'.dispatch <;> simp [hDispatch, Dispatch.looping] at hLeft ⊢
  unfold debt
  rw [hTasks, hOwn]
  rcases hPipe with hPipe | ⟨frame, hSending, hPush⟩
  · rw [hPipe]
    exact ⟨by omega, rfl⟩
  · have hBefore : c.owes = frame.wire.length := by simp [owes, hSending]
    rw [backlog_pushControl hPush, hBefore]
    obtain ⟨-, hEq⟩ := pushControl_eq hPush
    exact ⟨by omega, by rw [hEq]; rfl⟩

theorem taskInvariant_writes (side : Side) :
    TaskInvariant side fun t => ∀ rest, t.phase = .writing rest → rest ≠ [] where
  start id hId born rest hWriting := by cases side <;> cases hWriting
  succeeds t t' hInv hNext := by
    cases hNext with
    | step _ _ h => exact StreamTask.writes_something_step h
    | drop => exact nofun
    | push => exact hInv

/-- The function has returned an error. -/
def failed (c : Core) : Bool :=
  match c.dispatch with
  | .returned (some _) _ => true
  | _ => false

theorem isReturned_of_failed (h : c.failed = true) : c.dispatch.isReturned = true := by
  unfold failed at h
  split at h
  · rename_i hDispatch
    rw [hDispatch]
    rfl
  · cases h

/-- The writer has ended, or the transport has room for all that is still to come. -/
def spared (c : Core) (window : Nat) : Bool := !c.pipe.alive || c.debt ≤ window

theorem looping_of_failed (h : c.failed = true) : c.dispatch.looping = false := by
  have hReturned := isReturned_of_failed h
  cases hDispatch : c.dispatch <;> simp [hDispatch, Dispatch.isReturned] at hReturned
  rfl

/-- A writer that has ended takes no frame and no step. -/
theorem SessionEffect.not_alive {turn : Turn} {next next' : UInt32}
    (h : SessionEffect c turn next next' c') (hEnded : c.pipe.alive = false) :
    c'.pipe.alive = false := by
  refine h.pipe_induction (P := fun pipe => pipe.alive = false) ?_ ?_ ?_ (fun _ => hEnded) hEnded
  · intro _ _ hPush
    rw [(pushControl_eq hPush).1] at hEnded
    cases hEnded
  · intro _ _ hPush
    rw [(pushData_eq hPush).1] at hEnded
    cases hEnded
  · intro a _ hStep
    cases hPhase : c.pipe.phase <;> simp [Pipeline.alive, hPhase] at hEnded
    cases a <;> simp [Pipeline.step, Pipeline.turn, wrote, Pipeline.failed,
      finished, hPhase] at hStep

theorem spared_core {window : Nat} (h : c.step a = some c')
    (hSpared : c.pipe.alive = false ∨ c.debt + a.intake ≤ window) : c'.spared window = true := by
  rcases hSpared with hEnded | _
  · have hEffect : SessionEffect c (.core a) 0 0 c' := .core a c' rfl h
    simp [spared, hEffect.not_alive hEnded]
  · have hDebt := debt_step h
    simp only [spared, Bool.or_eq_true, decide_eq_true_eq]
    exact .inr (by omega)

end Core

/-! ## A session on a transport with a bounded buffer -/

/-- The steps in which the Agent has a part: it sends, it reads, or its end of the transport
fails. -/
def EdgeAction.withoutAgent : EdgeAction → Bool
  | .core (.arrive _) | .core .arriveEof | .core (.depart _) | .core (.writer .failed) => false
  | _ => true

def EdgeAction.intake : EdgeAction → Nat
  | .core a => a.intake
  | _ => 0

namespace EdgeSession

variable {s s' : EdgeSession} {a : EdgeAction} {window : Nat}

/-- The transport holds at most `window` bytes that the Agent has not read. -/
def stepWithin (window : Nat) (s : EdgeSession) (a : EdgeAction) : Option EdgeSession :=
  match a with
  | .core (.writer (.wrote n)) =>
    if s.core.pipe.outgoing.length + n ≤ window then s.step a else none
  | _ => s.step a

theorem step_of_within (h : s.stepWithin window a = some s') : s.step a = some s' := by
  unfold stepWithin at h
  split at h
  · split_ifs at h
    exact h
  · exact h

/-- A step that fails the session, or that reads from an ingress socket of a failed one, finds
the writer ended, or room for everything that is still to be sent. -/
def sparing (window : Nat) (s : EdgeSession) (a : EdgeAction) : Prop :=
  (s.stepWithin window a).all (fun s' =>
    !s'.core.failed || s.core.failed && a.intake = 0 || !s.core.pipe.alive ||
      s.core.debt + a.intake ≤ window) = true

instance (window : Nat) (s : EdgeSession) (a : EdgeAction) : Decidable (s.sparing window a) :=
  inferInstanceAs (Decidable (_ = true))

theorem sparing.room (hGuard : s.sparing window a) (h : s.stepWithin window a = some s')
    (hFailed : s'.core.failed = true) (hNew : s.core.failed = true → a.intake ≠ 0) :
    s.core.pipe.alive = false ∨ s.core.debt + a.intake ≤ window := by
  rw [sparing, h] at hGuard
  simp only [all_some, hFailed, Bool.not_true, Bool.false_or, Bool.or_eq_true,
    Bool.and_eq_true, decide_eq_true_eq, Bool.not_eq_true'] at hGuard
  rcases hGuard with (⟨hBefore, hNone⟩ | hEnded) | hRoom
  · exact absurd hNone (hNew hBefore)
  · exact .inl hEnded
  · exact .inr hRoom

/-- What every run keeps, and what a failed session keeps besides. -/
structure Abandoned (window : Nat) (s : EdgeSession) : Prop where
  side : s.core.side = .edge
  pipe : s.core.PipeOk
  streams : s.core.dispatch.looping = false → s.core.streams = ∅
  writing : ∀ t ∈ s.core.tasks, ∀ rest, t.phase = .writing rest → rest ≠ []
  spared : s.core.failed = true → s.core.spared window = true

theorem Abandoned.spared_step (hInv : s.Abandoned window) (hGuard : s.sparing window a)
    (h : s.stepWithin window a = some s') (hFailed : s'.core.failed = true) :
    s'.core.spared window = true := by
  have hStep := step_of_within h
  have hLeft := looping_of_failed hFailed
  by_cases hLoop : s.core.dispatch.looping = true
  · -- this step ends the loop with the error
    have hBefore : s.core.failed = false := by
      unfold Core.failed
      cases hDispatch : s.core.dispatch <;> simp [hDispatch, Dispatch.looping] at hLoop ⊢
    obtain ⟨_, hAlive⟩ := (step_effect hInv.side hStep).debt_leaves hLoop hLeft
    have hRoom := hGuard.room h hFailed (by simp [hBefore])
    simp only [Core.spared, hAlive, Bool.or_eq_true, Bool.not_eq_true', decide_eq_true_eq]
    exact hRoom.imp_right fun hRoom => by omega
  · rcases step_left (by simpa using hLoop) hStep with ⟨b, rfl, hCore⟩ | hSame | ⟨-, hEnded, -⟩
    · have hBefore : s.core.failed = true := by
        have hDispatch := (Core.step_effect hCore).outside.dispatch
        unfold Core.failed at hFailed ⊢
        rwa [hDispatch] at hFailed
      by_cases hNone : EdgeAction.intake (.core b) = 0
      · have hSpared := hInv.spared hBefore
        simp only [Core.spared, Bool.or_eq_true, Bool.not_eq_true', decide_eq_true_eq] at hSpared
        refine spared_core hCore (hSpared.imp_right fun hRoom => ?_)
        rw [show b.intake = 0 from hNone]
        exact hRoom
      · exact spared_core hCore (hGuard.room h hFailed fun _ => hNone)
    · rw [hSame] at hFailed ⊢
      exact hInv.spared hFailed
    · -- the writer had ended with an error
      have hAlive := (step_effect hInv.side hStep).not_alive hEnded
      simp [Core.spared, hAlive]

/-- **Step lemma.** -/
theorem Abandoned.step (hInv : s.Abandoned window) (hGuard : s.sparing window a)
    (h : s.stepWithin window a = some s') : s'.Abandoned window := by
  have hEffect := step_effect hInv.side (step_of_within h)
  exact ⟨hEffect.fixed.1.trans hInv.side, hInv.pipe.step hEffect,
    streams_step hEffect hInv.streams,
    (taskInvariant_writes s.core.side).change hEffect.change hInv.writing,
    hInv.spared_step hGuard h⟩

/-- One more step towards the end of the writer and the tasks of a failed session. -/
theorem Abandoned.advances (hInv : s.Abandoned window) (hFailed : s.core.failed = true) :
    (s.core.pipe.alive = false ∧ ∀ t ∈ s.core.tasks, t.running = false) ∨
      ∃ b c', EdgeAction.withoutAgent (.core b) = true ∧ b.intake = 0 ∧
        s.stepWithin window (.core b) = some { s with core := c' } ∧
        s.core.step b = some c' ∧ c'.effort < s.core.effort := by
  have hReturned := isReturned_of_failed hFailed
  have hLeft := looping_of_failed hFailed
  have hSpared := hInv.spared hFailed
  simp only [Core.spared, Bool.or_eq_true, Bool.not_eq_true', decide_eq_true_eq] at hSpared
  have hWriter : s.core.writes → ∃ b c', EdgeAction.withoutAgent (.core b) = true ∧
      b.intake = 0 ∧ s.stepWithin window (.core b) = some { s with core := c' } ∧
      s.core.step b = some c' ∧ c'.effort < s.core.effort := by
    intro hWrites
    obtain ⟨a, c', hSucceeds, hStep, hLess⟩ := hInv.pipe.writer_advances hWrites
    refine ⟨.writer a, c', ?_, rfl, ?_, hStep, hLess⟩
    · cases a <;> first | rfl | cases hSucceeds
    · have hTake : s.step (.core (.writer a)) = some { s with core := c' } := by
        simp [EdgeSession.step, hStep]
      cases a with
      | wrote _ =>
        -- the transport has room for it
        obtain ⟨pipe, hWrite, -⟩ := map_eq_some_iff.mp hStep
        have hWrote := wrote_le_backlog hWrite
        have hRoom : s.core.debt ≤ window :=
          hSpared.resolve_left (by rw [hWrites.1]; exact Bool.noConfusion)
        have hBacklog : s.core.pipe.backlog ≤ s.core.debt := by
          unfold debt
          omega
        exact (if_pos (by omega)).trans hTake
      | _ => exact hTake
  by_cases hRunning : ∃ t ∈ s.core.tasks, t.running = true
  · obtain ⟨t, hMem, hRuns⟩ := hRunning
    obtain ⟨i, hTask⟩ := getElem?_of_mem hMem
    rcases task_advances hInv.pipe (hInv.streams hLeft) hTask hRuns (hInv.writing t hMem)
        (fun _ => .inl hReturned) with ⟨e, c', hProceeds, hStep, hLess⟩ | hWrites
    · refine .inr ⟨.task i e, c', rfl, ?_, by simp [stepWithin, EdgeSession.step, hStep], hStep,
        hLess⟩
      cases e <;> first | rfl | cases hProceeds
    · exact .inr (hWriter hWrites)
  · have hNone : ∀ t ∈ s.core.tasks, t.running = false := by
      intro t hMem
      by_contra hRuns
      exact hRunning ⟨t, hMem, by simpa using hRuns⟩
    by_cases hAlive : s.core.pipe.alive = true
    · -- with the last task the last sender is gone
      have hHolds : s.core.dispatch.holdsSenders = false := by
        cases hDispatch : s.core.dispatch <;> simp [hDispatch, Dispatch.isReturned] at hReturned
        rfl
      have hGone : s.core.disconnected = true := disconnected_iff.mpr ⟨hHolds, hNone⟩
      refine .inr (hWriter ⟨hAlive, ?_⟩)
      rintro ⟨-, -, -, hSender⟩
      rw [hGone] at hSender
      simp at hSender
    · exact .inl ⟨by simpa using hAlive, hNone⟩

/-- **A failed Edge session leaves nothing behind**, if the transport had room for what was
still to be sent. In every state after the failure, steps that need nothing of the Agent end the
writer and every stream task. -/
theorem failure_leaves_nothing (window : Nat) (limits : SessionLimits) (commandCapacity : Nat)
    (run : List EdgeAction) (s : EdgeSession)
    (hGuard : Guarded (stepWithin window) (sparing window)
      (new limits commandCapacity) run)
    (hRun : exec (stepWithin window) (new limits commandCapacity) run = some s)
    (hFailed : s.core.failed = true) :
    ∃ actions s', (∀ a ∈ actions, EdgeAction.withoutAgent a = true) ∧
      exec (stepWithin window) s actions = some s' ∧
        s'.core.pipe.alive = false ∧ ∀ t ∈ s'.core.tasks, t.running = false := by
  have hInv : s.Abandoned window := exec_induction_guarded
    (fun _ _ _ hInv hGuard hStep => hInv.step hGuard hStep)
    ⟨rfl, pipeOk_new _ _, by rintro ⟨⟩, by simp [new, Core.new], by rintro ⟨⟩⟩ hGuard hRun
  let Left (s : EdgeSession) : Prop := s.Abandoned window ∧ s.core.failed = true
  have hAdvance : ∀ t, Left t →
      (t.core.pipe.alive = false ∧ ∀ u ∈ t.core.tasks, u.running = false) ∨
      ∃ a t', EdgeAction.withoutAgent a = true ∧ t.stepWithin window a = some t' ∧ Left t' ∧
        t'.core.effort < t.core.effort := by
    rintro t ⟨hInv, hFailed⟩
    rcases hInv.advances hFailed with hDone | ⟨b, _, hOwn, hNone, hTake, hStep, hLess⟩
    · exact .inl hDone
    · have hSparing : t.sparing window (.core b) := by
        unfold sparing
        cases t.stepWithin window (.core b) <;> simp [hFailed, EdgeAction.intake, hNone]
      refine .inr ⟨.core b, _, hOwn, hTake, ⟨hInv.step hSparing hTake, ?_⟩, hLess⟩
      have hDispatch := (Core.step_effect hStep).outside.dispatch
      unfold Core.failed at hFailed ⊢
      rwa [← hDispatch] at hFailed
  exact exec_progress _ hAdvance ⟨hInv, hFailed⟩

end EdgeSession

/-! ## A session that stays behind -/

namespace Core

variable {c : Core} {window : Nat}

/-- The writer has more to write than the transport takes, and holds the permit that the only
stream task waits for. -/
structure Wedged (window : Nat) (c : Core) : Prop where
  failed : c.failed = true
  kept : c.aborting = false
  writing : ∃ rest, c.pipe.phase = .writing rest true
  full : window ≤ c.pipe.outgoing.length
  permits : c.pipe.dataCapacity ≤ 1
  tasks : ∃ frame, c.tasks.map (·.phase) = [.sendData frame]

theorem Wedged.alive (h : c.Wedged window) : c.pipe.alive = true := by
  obtain ⟨_, hPhase⟩ := h.writing
  simp [Pipeline.alive, hPhase]

/-- Nothing happens in the session without the Agent. -/
theorem Wedged.stuck {a : CoreAction} (h : c.Wedged window)
    (hAlone : EdgeAction.withoutAgent (.core a) = true)
    (hRoom : ∀ n, a = .writer (.wrote n) → c.pipe.outgoing.length + n ≤ window) :
    c.step a = none := by
  obtain ⟨frame, hPhases⟩ := h.tasks
  obtain ⟨t, hTasks, hPhase⟩ := map_eq_singleton_iff.mp hPhases
  obtain ⟨_, hWriting⟩ := h.writing
  have hFull := h.full
  rw [eq_none_iff_forall_ne_some]
  intro next hStep
  have hStuck : ∀ i e, c.step (.task i e) ≠ some next := by
    intro i e hStep
    obtain ⟨u, _, hu, hEvent⟩ := task_of_step hStep
    obtain rfl : u = t := mem_singleton.mp (hTasks ▸ mem_of_getElem? hu)
    have hSend : u.pendingSend = some (.data frame) := by
      simp only [StreamTask.pendingSend, hPhase]
    have hUsed : ¬ c.pipe.permitsUsed < c.pipe.dataCapacity := by
      have hPermits := h.permits
      simp only [permitsUsed, hWriting]
      omega
    rcases StreamTask.sends_only hSend hEvent with rfl | rfl
    · simp [step, taskStep, hu, taskSent, hEvent, hSend, pushData, hUsed] at hStep
    · simp [step, taskStep, hu, taskSendFailed, hEvent, hSend, h.alive] at hStep
  cases step_effect hStep with
  | abort _ _ _ _ hAborting => cases h.kept.symm.trans hAborting
  | arrive | arriveEof | depart => cases hAlone
  | writer a _ hWrite =>
    cases a with
    | turn => simp [Pipeline.step, Pipeline.turn, hWriting] at hWrite
    | wrote n =>
      have hWindow := hRoom n rfl
      simp only [Pipeline.step, wrote, hWriting] at hWrite
      split_ifs at hWrite with hLen
      all_goals omega
    | failed => cases hAlone
    | finished => simp [Pipeline.step, finished, hWriting] at hWrite
  | _ => exact hStuck _ _ hStep

end Core

namespace EdgeSession

variable {s s' : EdgeSession} {a : EdgeAction} {window : Nat}

theorem wedged_step (h : s.core.Wedged window) (hAlone : a.withoutAgent = true)
    (hStep : s.stepWithin window a = some s') : s'.core.Wedged window := by
  have hReturned := isReturned_of_failed h.failed
  rcases step_left (looping_of_failed h.failed) (step_of_within hStep) with
    ⟨b, rfl, hCore⟩ | hSame | ⟨hAwait, -, -⟩
  · have hRoom : ∀ n, b = .writer (.wrote n) → s.core.pipe.outgoing.length + n ≤ window := by
      rintro _ rfl
      simp only [stepWithin] at hStep
      split_ifs at hStep with hWindow
      exact hWindow
    rw [h.stuck hAlone hRoom] at hCore
    cases hCore
  · rw [hSame]
    exact h
  · rw [hAwait] at hReturned
    cases hReturned

namespace Silent

open Mux.Example

/-- One permit. -/
def single : SessionLimits := { Sample.limits with dataQueue := 1, dataQueue_pos := Nat.one_pos }

def turns (n : Nat) : List EdgeAction := List.replicate n (.core (.writer .turn))

def timeout : List EdgeAction := [.heartbeat, .sent, .heartbeat]

/-- A stream relays; the Agent has read its OPEN_STREAM and then reads no more. -/
def relaying : List EdgeAction := opened ++ [.core (.depart 16)]

/-- The session fails with a PING to be written and a reset to come. -/
def light : List EdgeAction := relaying ++ timeout

/-- The client sends more than the transport takes, and then some. -/
def heavy : List EdgeAction :=
  relaying ++ [.core (.task 0 (.read (List.replicate 10 7))), .core (.task 0 .sent)] ++ turns 4 ++
    [.core (.writer (.wrote 24)), .core (.task 0 (.read [7]))] ++ timeout

end Silent

open Silent in
theorem failure_leaves_nothing_timeout : ∃ s actions s',
    exec (stepWithin 42) (new single 1) light = some s ∧
      s.core.dispatch = .returned (some (.heartbeatTimeout 1)) .completed ∧
      s.core.runningTasks = 1 ∧ s.core.pipe.alive = true ∧
      (∀ a ∈ actions, EdgeAction.withoutAgent a = true) ∧
      exec (stepWithin 42) s actions = some s' ∧
      s'.core.pipe.alive = false ∧ ∀ t ∈ s'.core.tasks, t.running = false := by
  obtain ⟨s, hExec, hDispatch, hRunning, hAlive⟩ :
      ∃ s, exec (stepWithin 42) (new single 1) light = some s ∧
      s.core.dispatch = .returned (some (.heartbeatTimeout 1)) .completed ∧
      s.core.runningTasks = 1 ∧ s.core.pipe.alive = true := by decide +kernel
  have hGuard : Guarded (stepWithin 42) (sparing 42) (new single 1) light := by
    decide +kernel
  obtain ⟨actions, s', hAlone, hActions, hEnd⟩ :=
    failure_leaves_nothing 42 single 1 light s hGuard hExec (by simp [Core.failed, hDispatch])
  exact ⟨s, actions, s', hExec, hDispatch, hRunning, hAlive, hAlone, hActions, hEnd⟩

open Silent in
/-- **A session that stays behind.** The Agent does not read; the session ends with a heartbeat
timeout while the writer is in the middle of a DATA frame and the stream task waits for the
permit of that frame. Without the Agent neither ever ends. -/
theorem failure_leaves_writer : ∃ s, exec (stepWithin 24) (new single 1) heavy = some s ∧
      s.core.dispatch = .returned (some (.heartbeatTimeout 1)) .completed ∧
      ∀ actions s', (∀ a ∈ actions, EdgeAction.withoutAgent a = true) →
        exec (stepWithin 24) s actions = some s' →
          s'.core.pipe.alive = true ∧ ∃ t ∈ s'.core.tasks, t.running = true := by
  obtain ⟨s, hExec, hDispatch, hKept, hWriting, hFull, hPermits, hPhases⟩ :
      ∃ s, exec (stepWithin 24) (new single 1) heavy = some s ∧
      s.core.dispatch = .returned (some (.heartbeatTimeout 1)) .completed ∧
      s.core.aborting = false ∧ s.core.pipe.phase = .writing [7, 7] true ∧
      24 ≤ s.core.pipe.outgoing.length ∧ s.core.pipe.dataCapacity ≤ 1 ∧
      s.core.tasks.map (·.phase) = [.sendData WriterRun.ClosedExample.data.frame] := by
    decide +kernel
  have hWedged : s.core.Wedged 24 := ⟨by simp [Core.failed, hDispatch], hKept, ⟨_, hWriting⟩, hFull,
    hPermits, _, hPhases⟩
  refine ⟨s, hExec, hDispatch, fun actions s' hAlone hActions => ?_⟩
  have hStill : s'.core.Wedged 24 := exec_induction_guarded
    (G := fun _ a => EdgeAction.withoutAgent a = true)
    (fun _ _ _ h hAlone hStep => wedged_step h hAlone hStep) hWedged
    (guarded_of_forall hAlone) hActions
  obtain ⟨_, hPhases⟩ := hStill.tasks
  obtain ⟨t, hTasks, hPhase⟩ := map_eq_singleton_iff.mp hPhases
  exact ⟨hStill.alive, t, by simp [hTasks], by simp [StreamTask.running, hPhase]⟩

end EdgeSession

end TunnelProxy.Mux
