import TunnelProxy.Lib.Transition

/-!
# The relay of an upgraded connection

`relay_upgraded_io` copies both directions in one loop: it waits for a read of either side or
for the idle timer, and writes what it has read before it waits again.

* `Sound.step` — what a step keeps of each direction
* `upgraded_bytes_delivered` — what is written was read, and on completion it is everything
* `timers_step` — what a running timer was set to, and what has happened since
* `upgraded_idle` — the relay was idle when it says so, if nothing can be read then
* `upgraded_cut_by_blocked_write` — a blocked write cuts the other direction
-/

namespace TunnelProxy.Ingress

open List Transition

inductive OpaqueRelayOutcome where
  | completed
  | idleTimeout
  | ioError
deriving DecidableEq

inductive RelaySide where
  | clientSide
  | localSide
deriving DecidableEq

inductive RelayPhase where
  | selecting
  | writing (source : RelaySide) (rest : List UInt8)
  | shuttingDown
  | returned (outcome : OpaqueRelayOutcome)
deriving DecidableEq

/-- From one side to the other: what the reader has still to give before its end of file, what
was read and written, and how much was written when the writer was asked to shut down. -/
structure RelayDirection where
  isOpen : Bool
  unread : List UInt8
  read : List UInt8
  written : List UInt8
  shutdownAt : Option Nat

structure UpgradedRelay where
  direction : RelaySide → RelayDirection
  phase : RelayPhase

/-- What the sockets and the timers answer. -/
inductive RelayEvent where
  | read (source : RelaySide) (count : Nat)
  | wrote (count : Nat)
  | shutdownEnded
  | ioError
  | elapsed

def upgradedBufferBytes : Nat := 16 * 1024

namespace UpgradedRelay

def new (sent : RelaySide → List UInt8) : UpgradedRelay :=
  ⟨fun side => ⟨true, sent side, [], [], none⟩, .selecting⟩

def update (s : UpgradedRelay) (source : RelaySide) (d : RelayDirection) (phase : RelayPhase) :
    UpgradedRelay :=
  ⟨Function.update s.direction source d, phase⟩

def step (s : UpgradedRelay) (e : RelayEvent) : Option UpgradedRelay :=
  match s.phase, e with
  | .selecting, .read source count =>
    let d := s.direction source
    if d.isOpen ∧ count ≤ min upgradedBufferBytes d.unread.length ∧ (count = 0 → d.unread = []) then
      if count = 0 then
        some (s.update source { d with isOpen := false, shutdownAt := some d.written.length }
          .shuttingDown)
      else
        some (s.update source
          { d with unread := d.unread.drop count, read := d.read ++ d.unread.take count }
          (.writing source (d.unread.take count)))
    else none
  | .writing source rest, .wrote count =>
    if 0 < count ∧ count ≤ rest.length then
      let d := s.direction source
      some (s.update source { d with written := d.written ++ rest.take count }
        (if count < rest.length then .writing source (rest.drop count) else .selecting))
    else none
  -- how `shutdown` ends is not looked at
  | .shuttingDown, .shutdownEnded =>
    let goesOn := (s.direction .clientSide).isOpen || (s.direction .localSide).isOpen
    some { s with phase := if goesOn then .selecting else .returned .completed }
  | .selecting, .ioError | .writing _ _, .ioError => some { s with phase := .returned .ioError }
  -- the idle timer, or the timeout of a write or a shutdown
  | .selecting, .elapsed | .writing _ _, .elapsed | .shuttingDown, .elapsed =>
    some { s with phase := .returned .idleTimeout }
  | _, _ => none

end UpgradedRelay

namespace RelayPhase

/-- What was read from a side and is not yet written: the rest of its chunk, unless the relay has
failed. -/
def Owes (side : RelaySide) (rest : List UInt8) : RelayPhase → Prop
  | writing source chunk => rest = if source = side then chunk else []
  | returned .idleTimeout | returned .ioError => True
  | _ => rest = []

/-- The relay goes on and writes nothing, or what it has read from `source`. -/
def Serves (source : RelaySide) : RelayPhase → Prop
  | writing side _ => side = source
  | returned _ => False
  | _ => True

end RelayPhase

variable {source side : RelaySide} {phase phase' : RelayPhase} {d : RelayDirection}

theorem RelayPhase.Serves.owes_iff {rest : List UInt8} (h : phase.Serves source)
    (hSide : side ≠ source) : phase.Owes side rest ↔ rest = [] := by
  cases phase with
  | writing =>
    obtain rfl := h
    rw [Owes, if_neg hSide.symm]
  | returned => cases h
  | selecting => rfl
  | shuttingDown => rfl

/-- What was read and what is to come is what the side sends, what was read is written but for
what the phase owes, and a writer is asked to shut down after its last byte. -/
structure RelayDirection.Sound (sent : List UInt8) (phase : RelayPhase) (side : RelaySide)
    (d : RelayDirection) : Prop where
  conserved : d.read ++ d.unread = sent
  passed : ∃ rest, d.written ++ rest = d.read ∧ phase.Owes side rest
  closed : d.isOpen = false → d.unread = [] ∧ d.shutdownAt = some d.written.length ∧
    ∀ rest, phase ≠ .writing side rest
  completed : phase = .returned .completed → d.isOpen = false

theorem RelayDirection.Sound.goto {sent : List UInt8} (h : Sound sent phase side d)
    (hOwes : ∀ rest, phase.Owes side rest → phase'.Owes side rest)
    (hIdle : ∀ rest, phase' ≠ .writing side rest)
    (hEnd : phase' = .returned .completed → d.isOpen = false) : Sound sent phase' side d := by
  obtain ⟨rest, hRead, hRest⟩ := h.passed
  refine ⟨h.conserved, ⟨rest, hRead, hOwes rest hRest⟩, fun hClosed => ?_, hEnd⟩
  obtain ⟨hUnread, hShutdown, -⟩ := h.closed hClosed
  exact ⟨hUnread, hShutdown, hIdle⟩

namespace UpgradedRelay

variable {sent : RelaySide → List UInt8} {s s' : UpgradedRelay} {e : RelayEvent}

def Sound (sent : RelaySide → List UInt8) (s : UpgradedRelay) : Prop :=
  ∀ side, (s.direction side).Sound (sent side) s.phase side

/-- One direction goes on while the other one has nothing to write. -/
theorem Sound.update (h : Sound sent s) (hOld : s.phase.Serves source) (hNew : phase.Serves source)
    (hDirection : d.Sound (sent source) phase source) : Sound sent (s.update source d phase) := by
  intro side
  show RelayDirection.Sound _ phase side (Function.update s.direction source d side)
  by_cases hSide : side = source
  · subst hSide
    rw [Function.update_self]
    exact hDirection
  · rw [Function.update_of_ne hSide]
    refine (h side).goto (fun rest hRest => ?_) ?_ ?_
    · exact (hNew.owes_iff hSide).mpr ((hOld.owes_iff hSide).mp hRest)
    · rintro _ rfl
      exact hSide hNew
    · rintro rfl
      cases hNew

theorem Sound.step (h : Sound sent s) (hStep : step s e = some s') : Sound sent s' := by
  unfold UpgradedRelay.step at hStep
  split at hStep
  · rename_i source count hPhase
    have hSource := h source
    rw [hPhase] at hSource
    obtain ⟨hConserved, ⟨_, hPassed, rfl⟩, -, -⟩ := hSource
    dsimp only at hStep
    split_ifs at hStep with hRead hZero
    · cases hStep
      exact Sound.update h (hPhase ▸ trivial) trivial
        ⟨hConserved, ⟨[], hPassed, rfl⟩, fun _ => ⟨hRead.2.2 hZero, rfl, nofun⟩, nofun⟩
    · cases hStep
      refine Sound.update h (hPhase ▸ trivial) rfl
        ⟨?_, ⟨(s.direction source).unread.take count, ?_, (if_pos rfl).symm⟩,
          fun hClosed => ?_, nofun⟩
      · rw [append_assoc, take_append_drop, hConserved]
      · rw [← hPassed, append_nil]
      · cases hRead.1.symm.trans hClosed
  · rename_i source chunk count hPhase
    have hSource := h source
    rw [hPhase] at hSource
    obtain ⟨hConserved, ⟨rest, hPassed, hRest⟩, hClosed, -⟩ := hSource
    obtain rfl : rest = chunk := hRest.trans (if_pos rfl)
    have hOpen : (s.direction source).isOpen ≠ false := fun hShut => (hClosed hShut).2.2 _ rfl
    have hWritten : ((s.direction source).written ++ rest.take count) ++ rest.drop count =
        (s.direction source).read := by
      rw [append_assoc, take_append_drop, hPassed]
    dsimp only at hStep
    split_ifs at hStep with hCount hMore
    · cases hStep
      exact Sound.update h (hPhase ▸ rfl) rfl
        ⟨hConserved, ⟨_, hWritten, (if_pos rfl).symm⟩, fun hShut => absurd hShut hOpen, nofun⟩
    · cases hStep
      have hNone : rest.drop count = [] := drop_eq_nil_of_le (Nat.le_of_not_lt hMore)
      exact Sound.update h (hPhase ▸ rfl) trivial
        ⟨hConserved, ⟨_, hWritten, hNone⟩, fun hShut => absurd hShut hOpen, nofun⟩
  · rename_i hPhase
    cases hStep
    intro side
    have hSide := h side
    rw [hPhase] at hSide
    show RelayDirection.Sound _ (ite _ _ _) _ _
    split_ifs with hOpen
    · exact hSide.goto (fun _ hRest => hRest) nofun nofun
    · refine hSide.goto (fun _ hRest => hRest) nofun fun _ => ?_
      cases side <;> simp_all
  -- the relay fails, whatever is not written yet
  iterate 5
    · cases hStep
      exact fun side => (h side).goto (fun _ _ => trivial) nofun nofun
  · cases hStep

/-- However the bytes of the two sides are read and written: what was written to a side is always
a prefix of what was read from the other one; and on completion it is all that one has sent, and
each writer was asked to shut down after its last byte. -/
theorem upgraded_bytes_delivered {events : List RelayEvent}
    (hRun : exec step (new sent) events = some s) :
    (∀ side, (s.direction side).written <+: (s.direction side).read ∧
      (s.direction side).read <+: sent side) ∧
    (s.phase = .returned .completed → ∀ side, (s.direction side).written = sent side ∧
      (s.direction side).shutdownAt = some (sent side).length) := by
  have hNew : Sound sent (new sent) := fun _ => ⟨rfl, ⟨[], rfl, rfl⟩, nofun, nofun⟩
  have hSound := exec_induction (P := Sound sent) (fun _ _ _ h => h.step) hNew hRun
  refine ⟨fun side => ?_, fun hDone side => ?_⟩
  · obtain ⟨rest, hRead, -⟩ := (hSound side).passed
    exact ⟨⟨rest, hRead⟩, ⟨_, (hSound side).conserved⟩⟩
  · have hSide := hSound side
    rw [hDone] at hSide
    obtain ⟨hUnread, hShutdown, -⟩ := hSide.closed (hSide.completed rfl)
    obtain ⟨_, hRead, rfl⟩ := hSide.passed
    have hSent := hSide.conserved
    rw [← hRead, hUnread, append_nil, append_nil] at hSent
    rw [hShutdown, hSent]
    exact ⟨rfl, rfl⟩

/-- Each side sends one byte and then its end. -/
def exchange : List RelayEvent :=
  [.clientSide, .localSide].flatMap fun side =>
    [.read side 1, .wrote 1, .read side 0, .shutdownEnded]

theorem upgraded_bytes_delivered_exchange :
    ∃ s, exec step (new fun _ => [7]) exchange = some s ∧
      ∀ side, (s.direction side).written = [7] := by
  obtain ⟨s, hExec, hDone⟩ : ∃ s, exec step (new fun _ => [7]) exchange = some s ∧
      s.phase = .returned .completed := by decide +kernel
  have hAll := (upgraded_bytes_delivered hExec).2 hDone
  exact ⟨s, hExec, fun side => (hAll side).1⟩

end UpgradedRelay

/-! ## Idle -/

/-- The relay with a clock, its idle timer and the timeout of the write or shutdown in progress;
and for each direction how many bytes can be read at its source, and how many its destination
has room for. -/
structure TimedRelay where
  relay : UpgradedRelay
  now : Nat
  idleAt : Nat
  timeoutAt : Nat
  readable : RelaySide → Nat
  room : RelaySide → Nat

/-- Time passes, more of what `source` sends can be read, its destination has room for more, or
the relay goes on. -/
inductive TimedEvent where
  | tick
  | arrive (source : RelaySide) (count : Nat)
  | accept (source : RelaySide) (count : Nat)
  | io (e : RelayEvent)

namespace TimedRelay

def new (idleTimeout : Nat) (sent : RelaySide → List UInt8) : TimedRelay :=
  ⟨.new sent, 0, idleTimeout, 0, fun _ => 0, fun _ => 0⟩

/-- The timer that ends the present wait. -/
def timer (s : TimedRelay) : Nat := if s.relay.phase = .selecting then s.idleAt else s.timeoutAt

/-- A read takes what can be read, and a write what there is room for. -/
def transfer (s : TimedRelay) (e : RelayEvent) : Option TimedRelay :=
  match e, s.relay.phase with
  | .read source count, _ =>
    if count ≤ s.readable source then
      some { s with readable := Function.update s.readable source (s.readable source - count) }
    else none
  | .wrote count, .writing source _ =>
    if count ≤ s.room source then
      some { s with room := Function.update s.room source (s.room source - count) }
    else none
  | _, _ => some s

/-- The idle timer is reset when `write_all` has returned, and a write or a shutdown begins with
a timeout of its own. -/
def resume (idleTimeout : Nat) (s : TimedRelay) (e : RelayEvent) (relay : UpgradedRelay)
    (t : TimedRelay) : TimedRelay :=
  { t with
    relay
    idleAt := match e, relay.phase with
      | .wrote _, .selecting => s.now + idleTimeout
      | _, _ => s.idleAt
    timeoutAt := if s.relay.phase = .selecting then s.now + idleTimeout else s.timeoutAt }

def step (idleTimeout : Nat) (s : TimedRelay) : TimedEvent → Option TimedRelay
  | .tick => some { s with now := s.now + 1 }
  | .arrive source count =>
    if s.readable source + count ≤ (s.relay.direction source).unread.length then
      some { s with readable := Function.update s.readable source (s.readable source + count) }
    else none
  | .accept source count =>
    some { s with room := Function.update s.room source (s.room source + count) }
  | .io e => (s.relay.step e).bind fun relay =>
    if relay.phase = .returned .idleTimeout ∧ s.now < s.timer then none
    else (s.transfer e).map (s.resume idleTimeout e relay)

/-- In neither direction a byte can be read that there is room for. -/
def quiet (s : TimedRelay) : Bool :=
  [RelaySide.clientSide, .localSide].all fun source => s.readable source = 0 || s.room source = 0

/-- A part of the run lasts for the idle timeout and is quiet from its first to its last event. -/
def WasIdle (idleTimeout : Nat) (sent : RelaySide → List UInt8) (events : List TimedEvent) : Prop :=
  ∃ i ≤ events.length, ∃ j ≤ events.length,
    ∃ s₀ ∈ exec (step idleTimeout) (new idleTimeout sent) (events.take i),
    ∃ s₁ ∈ exec (step idleTimeout) s₀ ((events.take j).drop i),
      s₀.now + idleTimeout ≤ s₁.now ∧
        Guarded (step idleTimeout) (fun s _ => s.quiet = true) s₀ ((events.take j).drop i)

instance decidableWasIdle (idleTimeout : Nat) (sent : RelaySide → List UInt8)
    (events : List TimedEvent) : Decidable (WasIdle idleTimeout sent events) := by
  unfold WasIdle
  infer_instance

/-- The timers that may still end a wait. -/
def timers (s : TimedRelay) : List Nat :=
  match s.relay.phase with
  | .selecting => [s.idleAt]
  | .writing _ _ => [s.timeoutAt]
  | .shuttingDown => [s.timeoutAt, s.idleAt]
  | .returned _ => []

variable {idleTimeout : Nat} {sent : RelaySide → List UInt8} {s s' : TimedRelay} {e : TimedEvent}
  {events : List TimedEvent}

/-- Only a read of some bytes lowers what can be read. -/
theorem transfer_keeps {e : RelayEvent} (h : s.transfer e = some s') :
    s'.now = s.now ∧ ((∀ source count, e = .read source count → count = 0) →
      ∀ side, s.readable side ≤ s'.readable side) := by
  unfold transfer at h
  split at h
  · split_ifs at h
    cases h
    refine ⟨rfl, fun hNone side => ?_⟩
    obtain rfl := hNone _ _ rfl
    exact Nat.le_of_eq (by rw [Nat.sub_zero, Function.update_eq_self])
  · split_ifs at h
    cases h
    exact ⟨rfl, fun _ _ => Nat.le_refl _⟩
  · cases h
    exact ⟨rfl, fun _ _ => Nat.le_refl _⟩

/-- What the relay does, the sockets allow; and it gives up only when its timer is over. -/
theorem step_io {e : RelayEvent} (h : step idleTimeout s (.io e) = some s') :
    ∃ relay t, s.relay.step e = some relay ∧ s.transfer e = some t ∧
      (relay.phase = .returned .idleTimeout → s.timer ≤ s.now) ∧
      s' = s.resume idleTimeout e relay t := by
  obtain ⟨relay, hRelay, hRest⟩ := Option.bind_eq_some_iff.mp h
  split at hRest
  · cases hRest
  · rename_i hTimer
    obtain ⟨t, hTransfer, hSame⟩ := Option.map_eq_some_iff.mp hRest
    exact ⟨relay, t, hRelay, hTransfer,
      fun hReturned => Nat.le_of_not_lt fun hNow => hTimer ⟨hReturned, hNow⟩, hSame.symm⟩

/-- **Step lemma.** A timer is set, or it goes on and nothing is read. -/
theorem timers_step {x : Nat} (hStep : step idleTimeout s e = some s') (hx : x ∈ s'.timers) :
    x = s'.now + idleTimeout ∨ x ∈ s.timers ∧ ∀ side, s.readable side ≤ s'.readable side := by
  cases e with
  | tick =>
    cases hStep
    exact .inr ⟨hx, fun _ => Nat.le_refl _⟩
  | accept =>
    cases hStep
    exact .inr ⟨hx, fun _ => Nat.le_refl _⟩
  | arrive source count =>
    simp only [step] at hStep
    split_ifs at hStep
    cases hStep
    refine .inr ⟨hx, fun side => ?_⟩
    by_cases hSide : side = source
    · subst hSide
      simp
    · simp [Function.update_of_ne hSide]
  | io e =>
    obtain ⟨relay, t, hRelay, hTransfer, -, rfl⟩ := step_io hStep
    obtain ⟨hNow, hKept⟩ := transfer_keeps hTransfer
    have hSet : s.now + idleTimeout = (s.resume idleTimeout e relay t).now + idleTimeout :=
      congrArg (· + idleTimeout) hNow.symm
    unfold UpgradedRelay.step at hRelay
    split at hRelay
    · rename_i source count hPhase
      dsimp only at hRelay
      split_ifs at hRelay with hRead hZero
      -- at the end of file the idle timer goes on behind the timeout of the shutdown
      · cases hRelay
        simp only [timers, resume, UpgradedRelay.update, hPhase, if_true, mem_cons, not_mem_nil,
          or_false] at hx ⊢
        rcases hx with rfl | rfl
        · exact .inl hSet
        · refine .inr ⟨rfl, hKept ?_⟩
          rintro _ _ ⟨⟩
          exact hZero
      · cases hRelay
        simp only [timers, resume, UpgradedRelay.update, hPhase, if_true, mem_singleton] at hx
        exact .inl (hx.trans hSet)
    · rename_i source chunk count hPhase
      dsimp only at hRelay
      split_ifs at hRelay with hCount hMore
      · cases hRelay
        simp only [timers, resume, UpgradedRelay.update, hPhase, reduceCtorEq, if_false,
          mem_singleton] at hx ⊢
        exact .inr ⟨hx, hKept nofun⟩
      · cases hRelay
        simp only [timers, resume, UpgradedRelay.update, mem_singleton] at hx
        exact .inl (hx.trans hSet)
    · rename_i hPhase
      cases hRelay
      by_cases hOpen : ((s.relay.direction .clientSide).isOpen ||
          (s.relay.direction .localSide).isOpen) = true
      · simp only [timers, resume, hOpen, if_true] at hx
        rw [timers, hPhase]
        exact .inr ⟨mem_cons_of_mem _ hx, hKept nofun⟩
      · simp only [timers, resume, hOpen] at hx
        cases hx
    iterate 5
      · cases hRelay
        cases hx
    · cases hRelay

/-- Since the timer was set nothing was read, so what could be read then can be read now. -/
def Waits (idleTimeout : Nat) (sent : RelaySide → List UInt8) (events : List TimedEvent)
    (s : TimedRelay) (x : Nat) : Prop :=
  ∃ before during s₀, events = before ++ during ∧ s₀.now + idleTimeout = x ∧
    exec (step idleTimeout) (new idleTimeout sent) before = some s₀ ∧
    exec (step idleTimeout) s₀ during = some s ∧
    Guarded (step idleTimeout) (fun t _ => ∀ side, t.readable side ≤ s.readable side) s₀ during

theorem waits (hRun : exec (step idleTimeout) (new idleTimeout sent) events = some s) :
    ∀ x ∈ s.timers, Waits idleTimeout sent events s x := by
  refine exec_history (R := fun events s => ∀ x ∈ s.timers, Waits idleTimeout sent events s x)
    ?_ ?_ hRun
  · intro x hx
    obtain rfl := mem_singleton.mp hx
    exact ⟨[], [], _, rfl, Nat.zero_add _, rfl, rfl, trivial⟩
  · intro as s e s' hAs hWaits hStep x hx
    have hStepRun : exec (step idleTimeout) s [e] = some s' :=
      exec_cons_eq_some.mpr ⟨s', hStep, rfl⟩
    rcases timers_step hStep hx with rfl | ⟨hOld, hKept⟩
    · exact ⟨as ++ [e], [], s', (append_nil _).symm, rfl, exec_append.mpr ⟨s, hAs, hStepRun⟩,
        rfl, trivial⟩
    · obtain ⟨before, during, s₀, rfl, hTimer, hBefore, hDuring, hGuard⟩ := hWaits x hOld
      refine ⟨before, during ++ [e], s₀, append_assoc .., hTimer, hBefore,
        exec_append.mpr ⟨s, hDuring, hStepRun⟩, ?_⟩
      exact (hGuard.mono fun _ _ h side => Nat.le_trans (h side) (hKept side)).snoc hDuring hKept

/-- Only a timer that is over makes the relay return `IdleTimeout`. -/
theorem timer_of_returned (hStep : step idleTimeout s e = some s')
    (hBefore : s.relay.phase ≠ .returned .idleTimeout)
    (hReturned : s'.relay.phase = .returned .idleTimeout) :
    s.timer ≤ s.now ∧ s.timer ∈ s.timers := by
  cases e with
  | tick | accept =>
    cases hStep
    exact absurd hReturned hBefore
  | arrive =>
    simp only [step] at hStep
    split_ifs at hStep
    cases hStep
    exact absurd hReturned hBefore
  | io e =>
    obtain ⟨relay, _, hRelay, -, hTimer, rfl⟩ := step_io hStep
    refine ⟨hTimer hReturned, ?_⟩
    unfold timer timers
    cases hPhase : s.relay.phase with
    | returned => simp [UpgradedRelay.step, hPhase] at hRelay
    | _ => simp

/-- **Idle means idle.** If nothing can be read at either side at the moment at which the relay
returns `IdleTimeout`, whichever wait it was in, then for the idle timeout before it no byte could
be moved in either direction. -/
theorem upgraded_idle (hRun : exec (step idleTimeout) (new idleTimeout sent) events = some s)
    (hStep : step idleTimeout s e = some s') (hBefore : s.relay.phase ≠ .returned .idleTimeout)
    (hReturned : s'.relay.phase = .returned .idleTimeout) (hNone : ∀ side, s.readable side = 0) :
    WasIdle idleTimeout sent events := by
  obtain ⟨hOver, hTimer⟩ := timer_of_returned hStep hBefore hReturned
  obtain ⟨before, during, s₀, rfl, hSet, hFirst, hDuring, hGuard⟩ := waits hRun _ hTimer
  refine ⟨before.length, by simp, (before ++ during).length, Nat.le_refl _, s₀, ?_, s, ?_,
    by omega, ?_⟩
  · rwa [take_left]
  · rwa [take_length, drop_left]
  · rw [take_length, drop_left]
    refine hGuard.mono fun t _ hLe => ?_
    have hZero : ∀ side, t.readable side = 0 := fun side =>
      Nat.le_zero.mp (hNone side ▸ hLe side)
    simp [quiet, hZero]

/-- A byte of the client is moved at once, and after two units of time without another one the
relay returns `IdleTimeout`. -/
theorem upgraded_idle_silent :
    WasIdle 2 (fun _ => [7]) [.tick, .arrive .clientSide 1, .accept .clientSide 1,
      .io (.read .clientSide 1), .io (.wrote 1), .tick, .tick] := by
  refine upgraded_idle (e := .io .elapsed) rfl rfl ?_ ?_ ?_
  · decide
  · rfl
  · rintro (_ | _) <;> rfl

/-- A byte of the client is read and not taken by the local side, which has sent a byte that the
client has room for. -/
def blockedWrite : List TimedEvent :=
  [.arrive .clientSide 1, .arrive .localSide 1, .accept .localSide 1,
    .io (.read .clientSide 1), .tick, .tick]

/-- The blocked write cuts the relay after two units of time, in which a byte could be moved from
the local side at any moment. -/
theorem upgraded_cut_by_blocked_write :
    (∃ s ∈ exec (step 2) (new 2 fun _ => [7]) (blockedWrite ++ [.io .elapsed]),
      s.relay.phase = .returned .idleTimeout) ∧
    ¬WasIdle 2 (fun _ => [7]) blockedWrite := by
  decide +kernel

end TimedRelay

end TunnelProxy.Ingress
