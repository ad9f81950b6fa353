import TunnelProxy.Lib.Transition
import TunnelProxy.Mux.Relay

/-!
# The idle bound of a stream

`stream_idle_timeout` is one arm of the `select!` of the relay loop: the timer is made when
the loop starts and set again by each frame and each read. While an arm awaits a socket write
or a queue, the `select!` is not polled and the timer cannot fire.

* `idle_ends` — at the `select!`, a stream that was idle for the timeout has a step that ends it
* `idle_unbounded` — inside a write that the peer does not accept it has none, ever
-/

namespace TunnelProxy.Mux

open Protocol Transition StreamTask Option

/-- A stream task with a clock. -/
structure TimedTask where
  task : StreamTask
  now : Nat
  /-- The deadline of `idle`. -/
  idleAt : Option Nat
  /-- When the loop started, or the task last took a frame, read or completed a write in it. -/
  lastActive : Option Nat

inductive IdleAction where
  | pass (elapsed : Nat)
  /-- The dispatch loop puts a frame on the inbound queue. -/
  | deliver (frame : Frame)
  | event (e : TaskEvent)

namespace TimedTask

def start (side : Side) (id : StreamId) (hId : id ≠ StreamId.control) : TimedTask :=
  ⟨.start side id hId 0, 0, none, none⟩

/-- The arms that set the timer again. -/
def resetsIdle (t : StreamTask) : TaskEvent → Bool
  | .recv => t.phase = .relay
  | .read _ => true
  | _ => false

def completesWrite (t' : StreamTask) : TaskEvent → Bool
  | .wrote _ => match t'.phase with
    | .writing _ => false
    | _ => true
  | _ => false

/-- The clock after an event: the timer is made when the loop is entered. -/
def after (timeout : Nat) (s : TimedTask) (e : TaskEvent) (t' : StreamTask) : TimedTask :=
  let armed := (s.idleAt.isNone && t'.phase = .relay) || resetsIdle s.task e
  { s with
    task := t'
    idleAt := if armed then some (s.now + timeout) else s.idleAt
    lastActive :=
      if armed || completesWrite t' e || e = .readEof then some s.now else s.lastActive }

def due (s : TimedTask) : Bool := s.idleAt.any (· ≤ s.now)

def step (timeout : Nat) (s : TimedTask) : IdleAction → Option TimedTask
  | .pass elapsed => some { s with now := s.now + elapsed }
  | .deliver frame => some { s with task := { s.task with inbound := s.task.inbound ++ [frame] } }
  | .event e =>
    if e = .idle ∧ s.due = false then none else (s.task.step e).map (s.after timeout e)

/-- The timer is never set later than the last activity asks for. -/
structure Timed (timeout : Nat) (s : TimedTask) : Prop where
  bound : ∀ d, s.idleAt = some d → ∃ a, s.lastActive = some a ∧ d ≤ a + timeout
  past : ∀ a, s.lastActive = some a → a ≤ s.now
  running : s.task.phase = .relay → s.idleAt.isSome

variable {timeout : Nat} {s s' : TimedTask} {action : IdleAction}

theorem Timed.after (h : s.Timed timeout) (e : TaskEvent) (t' : StreamTask) :
    (s.after timeout e t').Timed timeout := by
  unfold TimedTask.after
  by_cases hArmed : ((s.idleAt.isNone && t'.phase = .relay) || resetsIdle s.task e) = true
  · simp only [hArmed, Bool.true_or, if_true]
    exact ⟨fun d hd => ⟨s.now, rfl, (Option.some.inj hd).ge⟩,
      fun a ha => (Option.some.inj ha).ge, fun _ => rfl⟩
  · simp only [hArmed, Bool.false_or, if_false, Bool.false_eq_true]
    refine ⟨fun d hd => ?_, fun a ha => ?_, fun hRelay => ?_⟩
    · obtain ⟨a, ha, hBound⟩ := h.bound d hd
      split_ifs
      · exact ⟨s.now, rfl, hBound.trans (Nat.add_le_add_right (h.past a ha) timeout)⟩
      · exact ⟨a, ha, hBound⟩
    · split_ifs at ha
      · exact (Option.some.inj ha).ge
      · exact h.past a ha
    · -- the loop is only entered with a new timer
      cases hIdle : s.idleAt with
      | some => rfl
      | none => simp [hIdle, show t'.phase = .relay from hRelay] at hArmed

theorem Timed.step (h : s.Timed timeout) (hStep : s.step timeout action = some s') :
    s'.Timed timeout := by
  cases action with
  | pass =>
    cases hStep
    exact { h with past := fun a ha => (h.past a ha).trans (Nat.le_add_right _ _) }
  | deliver =>
    cases hStep
    exact { h with }
  | event e =>
    unfold TimedTask.step at hStep
    dsimp only at hStep
    split_ifs at hStep
    obtain ⟨t', -, rfl⟩ := map_eq_some_iff.mp hStep
    exact h.after e t'

/-- **The idle bound at the `select!`.** In every state that a task of either side reaches in
which it is suspended at the `select!` of its relay loop and the timeout has passed since the
last frame, read or completed write, the idle arm is enabled and ends the stream. -/
theorem idle_ends {side : Side} {id : StreamId} {hId : id ≠ StreamId.control}
    {actions : List IdleAction} {a : Nat}
    (hRun : exec (TimedTask.step timeout) (start side id hId) actions = some s)
    (hSelect : s.task.phase = .relay) (hActive : s.lastActive = some a)
    (hPast : a + timeout ≤ s.now) :
    ∃ s', s.step timeout (.event .idle) = some s' ∧
      s'.task.phase = .sendReset .idleTimeout ∧ s'.task.closeReason = .idleTimeout := by
  have hStart : (start side id hId).Timed timeout := by
    refine ⟨nofun, nofun, fun h => ?_⟩
    cases side <;> cases h
  have hTimed : s.Timed timeout :=
    exec_induction (fun _ _ _ hTimed hStep => hTimed.step hStep) hStart hRun
  obtain ⟨d, hIdle⟩ := isSome_iff_exists.mp (hTimed.running hSelect)
  obtain ⟨a', hActive', hBound⟩ := hTimed.bound d hIdle
  obtain rfl : a' = a := Option.some.inj (hActive'.symm.trans hActive)
  have hDue : s.due = true := by
    rw [due, hIdle, any_some, decide_eq_true_eq]
    exact hBound.trans hPast
  refine ⟨s.after timeout .idle (s.task.reset .idleTimeout .idleTimeout), ?_, rfl, rfl⟩
  rw [TimedTask.step, if_neg (by simp [hDue]), StreamTask.step, if_pos hSelect]
  rfl

/-! ## Inside a write -/

/-- What the peer of the socket does. -/
def needsSocket : IdleAction → Bool
  | .event (.wrote _) | .event .writeErr => true
  | _ => false

theorem writing_step {rest : List UInt8} (hOwn : needsSocket action = false)
    (hPhase : s.task.phase = .writing rest) (hStep : s.step timeout action = some s') :
    s'.task.phase = .writing rest := by
  cases action with
  | pass | deliver =>
    cases hStep
    exact hPhase
  | event e =>
    unfold TimedTask.step at hStep
    dsimp only at hStep
    split_ifs at hStep
    obtain ⟨_, hTask, -⟩ := map_eq_some_iff.mp hStep
    exfalso
    -- every arm but the two of the write awaits something else
    cases e with
    | wrote | writeErr => cases hOwn
    | recv =>
      simp only [StreamTask.step, onFrame, hPhase] at hTask
      split at hTask <;> cases hTask
    | _ =>
      simp [StreamTask.step, onSent, onSendFailed, onClosed,
        onRead, onReadEof, hPhase] at hTask

/-- The Edge task of stream 1 takes the acknowledgement. -/
def openedRun : List IdleAction :=
  [.event .sent, .deliver (StreamTask.start .edge 1 (by decide) 0).openFrame, .event .recv]

/-- The bound at work: after the acknowledgement nothing happens for 10 units of time. -/
theorem idle_ends_open :
    ∃ s s', exec (TimedTask.step 10) (start .edge 1 (by decide)) (openedRun ++ [.pass 10]) =
        some s ∧
      s.step 10 (.event .idle) = some s' ∧ s'.task.closeReason = .idleTimeout := by
  obtain ⟨s, hs, hActive, hNow, hPhase⟩ :
      ∃ s, exec (TimedTask.step 10) (start .edge 1 (by decide)) (openedRun ++ [.pass 10]) = some s ∧
      s.lastActive = some 0 ∧ s.now = 10 ∧ s.task.phase = .relay := by decide +kernel
  obtain ⟨s', hStep, -, hReason⟩ := idle_ends hs hPhase hActive hNow.ge
  exact ⟨s, s', hs, hStep, hReason⟩

/-- It takes one byte of data, too, and is in `write_all` while 10 units of time pass. -/
def blockedRun : List IdleAction :=
  openedRun ++ [.deliver ((StreamTask.start .edge 1 (by decide) 0).dataFrame [7] (by decide)),
    .event .recv, .pass 10]

/-- **A blocked write is not bounded.** With a timeout of 10, the task was idle for 10 and is
inside a write; whatever happens that does not need its client to accept the byte or to fail,
the stream is not ended. -/
theorem idle_unbounded :
    ∃ s, exec (TimedTask.step 10) (start .edge 1 (by decide)) blockedRun = some s ∧
      s.lastActive = some 0 ∧ s.now = 10 ∧
      ∀ actions s', (∀ action ∈ actions, needsSocket action = false) →
        exec (TimedTask.step 10) s actions = some s' → s'.task.live = true := by
  obtain ⟨s, hs, hActive, hNow, hPhase⟩ :
      ∃ s, exec (TimedTask.step 10) (start .edge 1 (by decide)) blockedRun = some s ∧
      s.lastActive = some 0 ∧ s.now = 10 ∧ s.task.phase = .writing [7] := by decide +kernel
  refine ⟨s, hs, hActive, hNow, fun actions s' hOwn hLater => ?_⟩
  have hGuarded :
      Guarded (TimedTask.step 10) (fun _ action => needsSocket action = false) s actions :=
    guarded_of_forall hOwn
  have hWriting : s'.task.phase = .writing [7] :=
    exec_induction_guarded (P := fun s => s.task.phase = .writing [7])
      (fun _ _ _ hPhase hOwn hStep => writing_step hOwn hPhase hStep) hPhase hGuarded hLater
  simp [live, hWriting]

end TimedTask

end TunnelProxy.Mux
