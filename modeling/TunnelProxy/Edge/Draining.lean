import TunnelProxy.Edge.Backpressure
import TunnelProxy.Mux.Draining

/-!
# Shutdown of the Edge runtime

`run_until_shutdown` leaves its loop on the signal, stops stream admission, reads the
session map once and sends `BeginDrain` to the sessions it found with `try_send`; then
`drain_tasks` waits for all connections until a deadline. The connections go on meanwhile.

A session misses the command if its queue is full at that moment, or if it enters the map
after it was read (`drain_misses_sessions`). When neither happens every registered session
is told or has left already, and a session that is told returns by its own steps
(`drain_reaches_every_session`).

The deadline is a step that may be taken at any time. An error of the listener, which ends
the function without a drain, is left out.
-/

namespace TunnelProxy.Edge

open Std Common Control Transition Registry ExtTreeMap List Option

inductive RuntimeShutdownOutcome where
  | drained (completedTasks : Nat)
  | forced (completedTasks abortedTasks : Nat)
deriving DecidableEq, Repr

/-- Where `run_until_shutdown` is. -/
inductive ShutdownStage where
  | running
  /-- The signal was seen and `accepting_streams` is false. -/
  | stopping
  /-- The loop over the senders that were read from the map. -/
  | broadcasting (senders : List TransportSessionId)
  /-- `drain_tasks` -/
  | draining (completedTasks : Nat)
  | stopped (outcome : RuntimeShutdownOutcome)
deriving DecidableEq

def ShutdownStage.isStopped : ShutdownStage → Bool
  | .stopped _ => true
  | _ => false

structure EdgeRuntime where
  registry : Registry
  stage : ShutdownStage
  /-- The connections whose task has left the `JoinSet`. -/
  joined : List Nat
  -- History.
  /-- The sessions registered when stream admission stopped, and those registered later. -/
  owed : List TransportSessionId
  /-- The sessions whose queue took `BeginDrain`. -/
  told : List TransportSessionId

namespace Registry

def Action.stops : Action → Bool
  | .stopAccepting => true
  | _ => false

/-- The session that the step puts into the map. -/
def inserting (r : Registry) : Action → List TransportSessionId
  | .holder =>
    match r.gate with
    | some (.insertSession _ session) => [session.sessionId]
    | _ => []
  | _ => []

end Registry

namespace EdgeRuntime

def start (config : RegistryConfig) (mode : EdgeRegistrationMode)
    (health : SnapshotSourceHealth) (unseen : Bool) : EdgeRuntime where
  registry := .bind config mode health unseen
  stage := .running
  joined := []
  owed := []
  told := []

inductive Action where
  /-- A step of the registry: of the loop while it runs, of the other tasks at any time. -/
  | registry (a : Registry.Action)
  /-- `tasks.join_next()` returns the task of connection `k`. -/
  | join (k : Nat)
  | shutdown
  /-- The senders are cloned, in the order of the hash map. -/
  | collect (senders : List TransportSessionId)
  | beginDrain
  | drained
  | deadline

def stepRegistry (e : EdgeRuntime) (a : Registry.Action) : Option EdgeRuntime :=
  match e.stage with
  | .stopped _ => none
  | .running =>
    if a.stops then none else (e.registry.step a).map fun registry => { e with registry }
  | _ =>
    if a.stops || a.ofLoop then none
    else (e.registry.step a).map fun registry =>
      { e with registry, owed := e.owed ++ e.registry.inserting a }

def join (e : EdgeRuntime) (k : Nat) : Option EdgeRuntime :=
  if e.registry.connections[k]? = some .finished ∧ k ∉ e.joined then
    match e.stage, e.registry.runtime with
    | .running, .selecting => some { e with joined := k :: e.joined }
    | .draining completedTasks, _ =>
      some { e with joined := k :: e.joined, stage := .draining (completedTasks + 1) }
    | _, _ => none
  else none

/-- The signal is seen in the `select!`. -/
def shutdown (e : EdgeRuntime) : Option EdgeRuntime :=
  match e.stage, e.registry.runtime with
  | .running, .selecting =>
    (e.registry.step .stopAccepting).map fun registry =>
      { e with registry, stage := .stopping, owed := sortedSessionIds e.registry.sessions }
  | _, _ => none

def collect (e : EdgeRuntime) (senders : List TransportSessionId) : Option EdgeRuntime :=
  match e.stage with
  | .stopping =>
    if senders.isPerm (e.registry.sessions.toList.map (·.2.commands)) then
      some { e with stage := .broadcasting senders }
    else none
  | _ => none

/-- One round of the loop over the senders: the result of `try_send` is dropped. -/
def beginDrain (e : EdgeRuntime) : Option EdgeRuntime :=
  match e.stage with
  | .broadcasting [] => some { e with stage := .draining 0 }
  | .broadcasting (sender :: rest) =>
    match e.registry.channels[sender]? with
    | none => some { e with stage := .broadcasting rest }
    | some channel =>
      match channel.trySend e.registry.config.sessionCommandCapacity .beginDrain with
      | .error _ => some { e with stage := .broadcasting rest }
      | .ok channel =>
        some { e with
          registry := { e.registry with channels := e.registry.channels.insert sender channel }
          stage := .broadcasting rest
          told := e.told ++ [sender] }
  | _ => none

/-- Tasks left in the `JoinSet`. -/
def tasks (e : EdgeRuntime) : Nat := e.registry.connections.length - e.joined.length

/-- After `drain_tasks` the registry is cleared. -/
def stop (e : EdgeRuntime) (outcome : RuntimeShutdownOutcome) : EdgeRuntime :=
  { e with
    registry := { e.registry with
      sessions := ∅
      tunnels := ∅
      sessionUpdates := []
      tunnelUpdates := [] }
    stage := .stopped outcome }

def drained (e : EdgeRuntime) : Option EdgeRuntime :=
  match e.stage with
  | .draining completedTasks =>
    if e.tasks = 0 then some (e.stop (.drained completedTasks)) else none
  | _ => none

/-- The deadline passes and the tasks that are left are aborted. -/
def deadline (e : EdgeRuntime) : Option EdgeRuntime :=
  match e.stage with
  | .draining completedTasks =>
    if e.tasks = 0 then none else some (e.stop (.forced completedTasks e.tasks))
  | _ => none

def step (e : EdgeRuntime) : Action → Option EdgeRuntime
  | .registry a => e.stepRegistry a
  | .join k => e.join k
  | .shutdown => e.shutdown
  | .collect senders => e.collect senders
  | .beginDrain => e.beginDrain
  | .drained => e.drained
  | .deadline => e.deadline

/-- The queue of the next session has room for `BeginDrain`, and no session enters the map
after it was read. -/
def unhindered (e : EdgeRuntime) : Action → Prop
  | .beginDrain =>
    match e.stage with
    | .broadcasting (sender :: _) =>
      match e.registry.channels[sender]? with
      | some channel =>
        channel.closed = true ∨ channel.queue.length < e.registry.config.sessionCommandCapacity
      | none => True
    | _ => True
  | .registry a =>
    match e.stage with
    | .broadcasting _ | .draining _ => e.registry.inserting a = []
    | _ => True
  | _ => True

instance (e : EdgeRuntime) (a : Action) : Decidable (e.unhindered a) := by
  unfold unhindered
  repeat' split
  all_goals infer_instance

end EdgeRuntime

/-! ## What the other tasks do to a registered session -/

namespace Registry

variable {r r' : Registry} {a : Action} {id : TransportSessionId}

/-- A receiver that is gone does not come back: a session that was registered gets no other
channel. -/
theorem closed_step (hSound : Sound r) (hKnown : id ∈ r.sessions ∨ .removed id ∈ r.log)
    (h : r.closedOf id = some true) (hStep : r.step a = some r') :
    r'.closedOf id = some true := by
  rcases closedOf_step hStep with hSame | ⟨k, session, hAt, hMade⟩ | ⟨k, session, hAt, hEnded⟩
  · exact (hSame id).trans h
  · obtain ⟨hOut, hNotRemoved⟩ := hSound.owned.pending k session (part_at hAt)
    have hNe : session.sessionId ≠ id := by
      rintro rfl
      exact hKnown.elim hOut hNotRemoved
    rw [hMade, if_neg hNe]
    exact h
  · rw [hEnded]
    split_ifs
    · rfl
    · exact h

/-- A registered session has its channel. -/
theorem made_of_registered (hSound : Sound r) (hFlagged : Flagged r) (hMem : id ∈ r.sessions) :
    r.closedOf id ≠ none := by
  obtain ⟨live, hLive⟩ := TreeMap.mem_iff_exists.mp hMem
  obtain ⟨k, session, hSession, rfl, -⟩ := hSound.owned.owner id live hLive
  obtain ⟨p, hAt, hp⟩ := bind_eq_some_iff.mp hSession
  have hFlag : ∀ closed, p.flag = some (session, closed) → r.closedOf session.sessionId ≠ none := by
    intro closed hFlag
    rw [hFlagged k session closed ((part_at hAt).trans hFlag)]
    simp
  cases p with
  | registering =>
    cases hp
    exact absurd hMem (hSound.owned.pending k session (part_at hAt)).1
  | publishing | inserted | running =>
    cases hp
    exact hFlag false rfl
  | removing =>
    cases hp
    exact hFlag true rfl
  | _ => cases hp

theorem sessions_step (hStep : r.step a = some r') (hNot : a ≠ .holder) :
    r'.sessions = r.sessions := by
  cases step_turn hStep with
  | apart _ _ hSessions => exact hSessions
  | takes hTakes =>
    obtain ⟨_, -, -, rfl⟩ := hTakes
    rfl
  | holder => exact absurd rfl hNot
  | changed | reads => rfl
  | notifies hNotify => exact (notifyRevoked_same hNotify).sessions

/-- While nothing is reconciled, a session leaves the map after it has ended. -/
theorem registered_step (hSound : Sound r) (hWired : Wired r) (hFlagged : Flagged r)
    (hRuntime : r.runtime = .selecting) (hMem : id ∈ r.sessions) (hStep : r.step a = some r') :
    id ∈ r'.sessions ∨ .removed id ∈ r'.log ∧ r'.closedOf id = some true := by
  by_cases hHolder : a = .holder
  · subst hHolder
    obtain ⟨stage, hGate, rfl⟩ := map_eq_some_iff.mp hStep
    have hNot := hWired.not_reconciles (by simp [hRuntime]) hGate
    cases stage with
    | insertSession => exact .inl (mem_insert.mpr (.inr hMem))
    | removeSession k session =>
      by_cases hId : session.sessionId = id
      · subst hId
        have hAt := hSound.held _ k _ hGate rfl
        refine .inr ⟨?_, hFlagged k session true (part_at hAt)⟩
        simp [runSection, hMem]
      · refine .inl (mem_erase.mpr ⟨?_, hMem⟩)
        exact fun hEq => hId (Std.compare_eq_iff_eq.mp hEq)
    | removeRevoked => cases hNot
    | reauthorize | collectRevoked | resolve =>
      refine .inl ?_
      simp only [runSection]
      split <;> exact hMem
    | enqueue id =>
      obtain ⟨_, _, hNext, -⟩ := r.runSection_enqueue id
      rw [hNext]
      exact .inl hMem
    | _ => exact .inl hMem
  · rw [sessions_step hStep hHolder]
    exact .inl hMem

/-- Without its own steps the loop stays in its `select!`. -/
theorem runtime_step (hWired : Wired r) (hRuntime : r.runtime = .selecting)
    (hLoop : a.ofLoop = false) (hStep : r.step a = some r') : r'.runtime = .selecting := by
  cases step_turn hStep with
  | apart _ _ _ hSame => exact hSame.trans hRuntime
  | takes hTakes =>
    obtain ⟨_, -, -, rfl⟩ := hTakes
    exact hRuntime
  | changed | reads | notifies => cases hLoop
  | holder stage hGate =>
    have hNot := hWired.not_reconciles (by simp [hRuntime]) hGate
    cases stage with
    | setStatus => cases hNot
    | reauthorize | collectRevoked | resolve =>
      simp only [runSection]
      split <;> exact hRuntime
    | enqueue id =>
      obtain ⟨_, _, hNext, -⟩ := r.runSection_enqueue id
      rw [hNext]
      exact hRuntime
    | _ => exact hRuntime

theorem inserted_step (h : id ∈ r.inserting a) (hStep : r.step a = some r') : id ∈ r'.sessions := by
  unfold inserting at h
  split at h
  · split at h
    · rename_i hGate
      obtain ⟨_, hStage, rfl⟩ := map_eq_some_iff.mp hStep
      cases hGate.symm.trans hStage
      rw [mem_singleton.mp h]
      exact mem_insert_self
    · simp at h
  · simp at h

end Registry

/-! ## Who has been reached -/

namespace EdgeRuntime

variable {e e' : EdgeRuntime} {a : Action} {id sender : TransportSessionId}
  {rest : List TransportSessionId}

/-- What is true, at each stage, of a session that is to be told. -/
def Covered (e : EdgeRuntime) (id : TransportSessionId) : ShutdownStage → Prop
  | .running => False
  | .stopping => id ∈ e.registry.sessions ∨ e.registry.closedOf id = some true
  | .broadcasting senders =>
    id ∈ e.told ∨ e.registry.closedOf id = some true ∨ id ∈ senders
  | .draining _ | .stopped _ => id ∈ e.told ∨ e.registry.closedOf id = some true

structure Reaches (e : EdgeRuntime) : Prop where
  sound : e.registry.Sound
  wired : e.registry.Wired
  flagged : e.registry.Flagged
  /-- The loop was left from its `select!`. -/
  selecting : e.stage ≠ .running → e.registry.runtime = .selecting
  known : ∀ id ∈ e.owed, id ∈ e.registry.sessions ∨ .removed id ∈ e.registry.log
  made : ∀ id ∈ e.owed, e.registry.closedOf id ≠ none
  covered : ∀ id ∈ e.owed, e.Covered id e.stage

section

variable (h : e.Reaches)
include h

theorem Reaches.coveredAt {stage : ShutdownStage} (hStage : e.stage = stage) (hId : id ∈ e.owed) :
    e.Covered id stage :=
  hStage ▸ h.covered id hId

/-- The other tasks take a step after the loop was left. -/
theorem Reaches.registry_step {a : Registry.Action} {r' : Registry}
    (hStep : e.registry.step a = some r') (hLoop : a.ofLoop = false)
    (hStage : e.stage ≠ .running)
    (hNone : e.stage ≠ .stopping → e.registry.inserting a = []) :
    Reaches { e with registry := r', owed := e.owed ++ e.registry.inserting a } := by
  have hRuntime := h.selecting hStage
  have hSound := h.sound.step hStep
  have hFlagged := h.flagged.step h.sound hStep
  have hKept : ∀ id, id ∈ e.registry.sessions →
      id ∈ r'.sessions ∨ .removed id ∈ r'.log ∧ r'.closedOf id = some true :=
    fun id hMem => registered_step h.sound h.wired h.flagged hRuntime hMem hStep
  refine ⟨hSound, h.wired.step hStep, hFlagged,
    fun _ => runtime_step h.wired hRuntime hLoop hStep, ?_, ?_, ?_⟩
  · intro id hId
    rcases mem_append.mp hId with hOld | hNew
    · rcases h.known id hOld with hMem | hRemoved
      · exact (hKept id hMem).imp_right And.left
      · exact .inr (log_step hStep hRemoved)
    · exact .inl (inserted_step hNew hStep)
  · intro id hId
    rcases mem_append.mp hId with hOld | hNew
    · have hMade := h.made id hOld
      rcases closedOf_step hStep with hSame | ⟨_, _, -, hNext⟩ | ⟨_, _, -, hNext⟩
      · rwa [hSame]
      all_goals
        rw [hNext]
        split_ifs <;> simp [hMade]
    · exact made_of_registered hSound hFlagged (inserted_step hNew hStep)
  · intro id hId
    rcases mem_append.mp hId with hOld | hNew
    · have hClosed : e.registry.closedOf id = some true → r'.closedOf id = some true :=
        fun hClosed => closed_step h.sound (h.known id hOld) hClosed hStep
      -- a session stays closed, so what is covered at a stage stays so
      dsimp only
      cases hAt : e.stage with
      | running => exact absurd hAt hStage
      | stopping =>
        rcases h.coveredAt hAt hOld with hMem | hGone
        · exact (hKept id hMem).imp_right And.right
        · exact .inr (hClosed hGone)
      | broadcasting => exact (h.coveredAt hAt hOld).imp_right (Or.imp_left hClosed)
      | draining | stopped => exact (h.coveredAt hAt hOld).imp_right hClosed
    · -- only before the map was read
      have hStopping : e.stage = .stopping := by
        by_contra hNot
        rw [hNone hNot] at hNew
        cases hNew
      dsimp only
      rw [hStopping]
      exact .inl (inserted_step hNew hStep)

theorem Reaches.stepRegistry {a : Registry.Action}
    (hGuard : e.unhindered (.registry a)) (hStep : e.stepRegistry a = some e') : e'.Reaches := by
  unfold EdgeRuntime.stepRegistry at hStep
  split at hStep
  · cases hStep
  · rename_i hRunning
    split_ifs at hStep
    obtain ⟨_, hr', rfl⟩ := map_eq_some_iff.mp hStep
    refine ⟨h.sound.step hr', h.wired.step hr', h.flagged.step h.sound hr',
      fun hNot => absurd hRunning hNot, ?_, ?_, ?_⟩
    all_goals
      -- while the loop runs nobody is owed anything
      intro id hId
      cases h.coveredAt hRunning hId
  · rename_i hNotStopped hNotRunning
    split_ifs at hStep with hLoop
    obtain ⟨_, hr', rfl⟩ := map_eq_some_iff.mp hStep
    simp only [Bool.or_eq_true, not_or, Bool.not_eq_true] at hLoop
    refine h.registry_step hr' hLoop.2 hNotRunning fun hNotStopping => ?_
    cases hStage : e.stage with
    | running => exact absurd hStage hNotRunning
    | stopping => exact absurd hStage hNotStopping
    | broadcasting | draining => simpa [unhindered, hStage] using hGuard
    | stopped outcome => exact absurd hStage (hNotStopped outcome)

/-- The stage goes on and the registry stays. -/
theorem Reaches.restage (stage : ShutdownStage) (joined : List Nat)
    (hRunning : e.stage = .running → stage = .running)
    (hCovered : ∀ id ∈ e.owed, e.Covered id stage) :
    Reaches { e with stage, joined } :=
  ⟨h.sound, h.wired, h.flagged, fun hNot => h.selecting fun hEq => hNot (hRunning hEq), h.known,
    h.made, hCovered⟩

theorem Reaches.join {k : Nat} (hStep : e.join k = some e') : e'.Reaches := by
  unfold EdgeRuntime.join at hStep
  split_ifs at hStep
  split at hStep <;> cases hStep
  · exact h.restage _ _ (fun hEq => hEq) h.covered
  · rename_i hStage
    refine h.restage _ _ (by simp [hStage]) fun id hId => ?_
    have hCovered := h.coveredAt hStage hId
    exact hCovered

theorem Reaches.shutdown (hStep : e.shutdown = some e') : e'.Reaches := by
  unfold EdgeRuntime.shutdown at hStep
  split at hStep
  · rename_i hRuntime
    obtain ⟨r', hr', rfl⟩ := map_eq_some_iff.mp hStep
    have hSessions : r'.sessions = e.registry.sessions := sessions_step hr' (by simp)
    have hSound := h.sound.step hr'
    have hFlagged := h.flagged.step h.sound hr'
    have hMem : ∀ id ∈ sortedSessionIds e.registry.sessions, id ∈ r'.sessions := by
      intro _ hId
      rw [hSessions]
      exact mem_keys.mp hId
    exact ⟨hSound, h.wired.step hr', hFlagged,
      fun _ => runtime_step h.wired hRuntime rfl hr', fun id hId => .inl (hMem id hId),
      fun id hId => made_of_registered hSound hFlagged (hMem id hId),
      fun id hId => .inl (hMem id hId)⟩
  · cases hStep

/-- The senders are those of the registered sessions. -/
theorem Reaches.collect {senders : List TransportSessionId}
    (hStep : e.collect senders = some e') : e'.Reaches := by
  unfold EdgeRuntime.collect at hStep
  split at hStep
  · rename_i hStage
    split_ifs at hStep with hPerm
    cases hStep
    refine h.restage _ e.joined (by simp [hStage]) fun id hId => ?_
    rcases h.coveredAt hStage hId with hMem | hClosed
    · obtain ⟨live, hLive⟩ := TreeMap.mem_iff_exists.mp hMem
      refine .inr (.inr ((isPerm_iff.mp hPerm).mem_iff.mpr ?_))
      refine mem_map.mpr ⟨(id, live), ?_, h.wired.keyed id live hLive⟩
      exact mem_toList_iff_getElem?_eq_some.mpr hLive
    · exact .inr (.inl hClosed)
  · cases hStep

/-- One place in a queue is taken by `BeginDrain`. -/
theorem Reaches.send {channel : CommandChannel} {r' : Registry}
    (hStage : e.stage = .broadcasting (sender :: rest))
    (hChannel : e.registry.channels[sender]? = some channel) (hNext : r' = { e.registry with
      channels := e.registry.channels.insert sender
        { channel with queue := channel.queue ++ [.beginDrain] } }) :
    Reaches { e with
      registry := r'
      stage := .broadcasting rest
      told := e.told ++ [sender] } := by
  have hChannels : r'.channels = e.registry.channels.insert sender
      { channel with queue := channel.queue ++ [.beginDrain] } := by
    rw [hNext]
  have hClosed : ∀ id, r'.closedOf id = e.registry.closedOf id :=
    closedOf_update hChannels hChannel rfl
  have hSame : Same e.registry r' := by
    subst hNext
    constructor <;> first | rfl | exact fun _ hEq => hEq
  have hRuntime : r'.runtime = e.registry.runtime := by rw [hNext]
  refine ⟨h.sound.same hSame, h.wired.congr hSame.gate hRuntime hSame.sessions,
    h.flagged.anti hClosed ?_, fun _ => hRuntime.trans (h.selecting (by simp [hStage])), ?_, ?_, ?_⟩
  · intro _ _ hx
    simpa only [part, hSame.connections] using hx
  · intro id hId
    dsimp only
    rw [hSame.sessions, hSame.log]
    exact h.known id hId
  · intro id hId
    rw [hClosed]
    exact h.made id hId
  · intro id hId
    rcases h.coveredAt hStage hId with hTold | hGone | hSender
    · exact .inl (mem_append_left _ hTold)
    · exact .inr (.inl ((hClosed id).trans hGone))
    · rcases mem_cons.mp hSender with rfl | hRest
      · exact .inl (by simp)
      · exact .inr (.inr hRest)

/-- A sender is passed over whose session has left. -/
theorem Reaches.skip (hStage : e.stage = .broadcasting (sender :: rest))
    (hGone : sender ∈ e.owed → e.registry.closedOf sender = some true) :
    Reaches { e with stage := .broadcasting rest } := by
  refine h.restage _ e.joined (by simp [hStage]) fun id hId => ?_
  rcases h.coveredAt hStage hId with hTold | hClosed | hSender
  · exact .inl hTold
  · exact .inr (.inl hClosed)
  · rcases mem_cons.mp hSender with rfl | hRest
    · exact .inr (.inl (hGone hId))
    · exact .inr (.inr hRest)

theorem Reaches.beginDrain (hGuard : e.unhindered .beginDrain)
    (hStep : e.beginDrain = some e') : e'.Reaches := by
  unfold EdgeRuntime.beginDrain at hStep
  split at hStep
  · rename_i hStage
    cases hStep
    refine h.restage _ e.joined (by simp [hStage]) fun id hId => ?_
    exact (h.coveredAt hStage hId).imp_right fun hRest => hRest.resolve_right not_mem_nil
  · rename_i sender rest hStage
    split at hStep
    · rename_i hNone
      cases hStep
      refine h.skip hStage fun hOwed => absurd ?_ (h.made sender hOwed)
      simp [closedOf, hNone]
    · rename_i channel hChannel
      simp only [unhindered, hStage, hChannel] at hGuard
      split at hStep <;> cases hStep
      · rename_i hError
        refine h.skip hStage fun _ => ?_
        -- there was room, so the receiver is gone
        have hClosed : channel.closed = true := by
          rcases hGuard with hClosed | hRoom
          · exact hClosed
          · by_contra hOpen
            simp [CommandChannel.trySend, hOpen, Nat.not_le.mpr hRoom] at hError
        simp [closedOf, hChannel, hClosed]
      · rename_i hSend
        obtain ⟨-, -, rfl⟩ := CommandChannel.trySend_eq_ok hSend
        exact h.send hStage hChannel rfl
  · cases hStep

omit h in
/-- A runtime that has stopped takes no step. -/
theorem not_stopped_of_step (hStep : e.step a = some e') : e.stage.isStopped = false := by
  cases hStage : e.stage with
  | stopped =>
    cases a <;>
      simp [step, EdgeRuntime.stepRegistry, EdgeRuntime.join, EdgeRuntime.shutdown,
        EdgeRuntime.collect, EdgeRuntime.beginDrain, drained, deadline, hStage] at hStep
  | _ => rfl

theorem Reaches.step (hGuard : e.unhindered a) (hStep : e.step a = some e')
    (hNot : e'.stage.isStopped = false) : e'.Reaches := by
  cases a with
  | registry => exact h.stepRegistry hGuard hStep
  | join => exact h.join hStep
  | shutdown => exact h.shutdown hStep
  | collect => exact h.collect hStep
  | beginDrain => exact h.beginDrain hGuard hStep
  | drained =>
    simp only [EdgeRuntime.step, EdgeRuntime.drained] at hStep
    split at hStep
    · split_ifs at hStep
      cases hStep
      cases hNot
    · cases hStep
  | deadline =>
    simp only [EdgeRuntime.step, EdgeRuntime.deadline] at hStep
    split at hStep
    · split_ifs at hStep
      cases hStep
      cases hNot
    · cases hStep

end

/-- **Draining reaches every session**, when each queue has room for `BeginDrain` and no
session enters the map after it was read. Every session that was registered when stream
admission stopped, or later, is told or has left `run_edge_session`; and a session that is
told returns by its own steps once no stream of it is running. -/
theorem drain_reaches_every_session {config : RegistryConfig} {mode : EdgeRegistrationMode}
    {health : SnapshotSourceHealth} {unseen : Bool} {actions : List Action} {completedTasks : Nat}
    (hUnhindered : Guarded step unhindered (start config mode health unseen) actions)
    (hRun : exec step (start config mode health unseen) actions = some e)
    (hStage : e.stage = .draining completedTasks) (hOwed : id ∈ e.owed) :
    (id ∈ e.told ∨ e.registry.closedOf id = some true) ∧
      ∀ (limits : Mux.SessionLimits) (before after : List Mux.EdgeAction) (s : Mux.EdgeSession),
        exec Mux.EdgeSession.step
            (.new limits e.registry.config.sessionCommandCapacity)
            (before ++ .enqueue .beginDrain :: after) = some s →
          ∃ steps s', (∀ a ∈ steps, Mux.EdgeSession.own a = true) ∧
            exec Mux.EdgeSession.step s steps = some s' ∧
            (s'.core.dispatch.isReturned = true ∨ s'.streaming) := by
  refine ⟨?_, fun limits before after s hSession => Mux.EdgeSession.returns_of_told hSession⟩
  have hReaches : e.stage.isStopped = false → e.Reaches :=
    exec_induction_guarded (P := fun e => e.stage.isStopped = false → e.Reaches)
      (fun _ _ _ h hGuard hStep hNot => (h (not_stopped_of_step hStep)).step hGuard hStep hNot)
      (fun _ => ⟨sound_bind config mode health unseen, wired_bind config mode health unseen,
        by simp [start, Flagged, Registry.bind, part],
        fun hNot => absurd rfl hNot, by rintro _ ⟨⟩, by rintro _ ⟨⟩, by rintro _ ⟨⟩⟩)
      hUnhindered hRun
  exact (hReaches (by rw [hStage]; rfl)).coveredAt hStage hOwed

end EdgeRuntime

namespace RegistryExample

def initialRuntime (capacity : Nat) : EdgeRuntime :=
  .start ⟨3, capacity⟩ (.mutualTls first true) .live false

def registrySteps (actions : List Registry.Action) : List EdgeRuntime.Action :=
  actions.map .registry

/-- The session of `web` is registered and its queue holds an open. -/
def webOpened : List EdgeRuntime.Action :=
  registrySteps (handshake 0 web ++ publication 0 ++ [.openTunnel web] ++ holder 2)

/-- The session of `ssh` is about to enter the map. -/
def sshPublishing : List EdgeRuntime.Action :=
  registrySteps (handshake 1 ssh ++ [.allocate 1, .registered 1, .lock 1] ++ holder 1)

/-- `web` is told, with one place left in its queue. -/
def drainedRun : List EdgeRuntime.Action :=
  webOpened ++ [.shutdown, .collect [1], .beginDrain, .beginDrain]

/-- The queue of `web` is full when it is told; `ssh` enters the map afterwards. Then `web`
takes its only command. -/
def missedRun : List EdgeRuntime.Action :=
  webOpened ++ sshPublishing ++ [.shutdown, .collect [1], .beginDrain, .beginDrain] ++
    registrySteps (holder 4 ++ [.receive 0])

def sessionLimits : Mux.SessionLimits :=
  ⟨1, 1, 1, 1, Nat.one_pos, Nat.one_pos, Nat.one_pos, Nat.one_pos⟩

end RegistryExample

namespace EdgeRuntime

open RegistryExample

theorem drain_reaches_web : ∃ e s',
    exec step (initialRuntime 2) drainedRun = some e ∧ e.owed = [1] ∧
      (1 ∈ e.told ∨ e.registry.closedOf 1 = some true) ∧
      ∃ steps, exec Mux.EdgeSession.step (.new sessionLimits 2)
        (.enqueue .beginDrain :: steps) = some s' ∧
        (s'.core.dispatch.isReturned = true ∨ s'.streaming) := by
  obtain ⟨e, he, hStage, hOwed, hCapacity⟩ : ∃ e, exec step (initialRuntime 2) drainedRun = some e ∧
      e.stage = .draining 0 ∧ e.owed = [1] ∧ e.registry.config.sessionCommandCapacity = 2 := by
    decide +kernel
  have hUnhindered : Guarded step unhindered (initialRuntime 2) drainedRun := by
    decide +kernel
  have hMem : 1 ∈ e.owed := by simp [hOwed]
  obtain ⟨hTold, hReturns⟩ := drain_reaches_every_session hUnhindered he hStage hMem
  rw [hCapacity] at hReturns
  obtain ⟨steps, s', -, hSteps, hEnd⟩ := hReturns sessionLimits [] [] _ rfl
  refine ⟨e, s', he, hOwed, hTold, steps, ?_, hEnd⟩
  exact exec_cons_eq_some.mpr ⟨_, rfl, hSteps⟩

/-- Both sessions are missed: nobody is told, both receivers live and have nothing to take,
and the deadline aborts them. -/
theorem drain_misses_sessions : ∃ e e',
    exec step (initialRuntime 1) missedRun = some e ∧ e.stage = .draining 0 ∧
      e.owed = [1, 2] ∧ e.told = [] ∧ e.registry.channels[1]? = some ⟨[], false⟩ ∧
      e.registry.channels[2]? = some ⟨[], false⟩ ∧ e.step .deadline = some e' ∧
      e'.stage = .stopped (.forced 0 2) := by
  obtain ⟨e, he, hStage, hOwed, hTold, hFirst, hSecond, hTasks⟩ :
      ∃ e, exec step (initialRuntime 1) missedRun = some e ∧ e.stage = .draining 0 ∧
      e.owed = [1, 2] ∧ e.told = [] ∧ e.registry.channels[1]? = some ⟨[], false⟩ ∧
      e.registry.channels[2]? = some ⟨[], false⟩ ∧ e.tasks = 2 := by decide +kernel
  refine ⟨e, e.stop (.forced 0 2), he, hStage, hOwed, hTold, hFirst, hSecond, ?_, rfl⟩
  simp only [step, deadline, hStage, hTasks]
  rfl

end EdgeRuntime

end TunnelProxy.Edge
