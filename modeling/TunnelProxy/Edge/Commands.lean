import TunnelProxy.Edge.Ownership

/-!
# Command channels of the sessions

What one step of the registry does to the command channels is said once
(`channel_effect`): at most one channel changes, a running session takes its first command,
and a command is added at the end. From it follow the facts that revocation and draining
need.

* `Wired` — a registered session is reached through its own channel, and only a
  reconciliation removes sessions of other tasks
* `Flagged` — the receiver of a channel lives as long as its session
-/

namespace TunnelProxy.Edge

open Std Common Control CommandChannel Option

variable {channel : CommandChannel} {command : SessionCommand}

variable {channel' : CommandChannel}

theorem CommandChannel.trySend_eq_ok {capacity : Nat}
    (h : channel.trySend capacity command = .ok channel') :
    channel.closed = false ∧ channel.queue.length < capacity ∧
      channel' = { channel with queue := channel.queue ++ [command] } := by
  unfold trySend at h
  split_ifs at h with hClosed hFull
  cases h
  exact ⟨by simpa using hClosed, Nat.lt_of_not_le hFull, rfl⟩

theorem CommandChannel.trySend_full {capacity : Nat}
    (h : channel.trySend capacity command = .error .full) : capacity ≤ channel.queue.length := by
  unfold trySend at h
  split at h
  · cases h
  · split at h
    · rename_i hFull
      exact hFull
    · cases h

/-- The session of a connection whose command channel was made, and whether its receiver is
gone. -/
def Phase.flag : Phase → Option (AgentSession × Bool)
  | .publishing session | .inserted session | .running session => some (session, false)
  | .removing session => some (session, true)
  | _ => none

/-- The section is part of a reconciliation. -/
def Section.reconciles : Section → Bool
  | .collectRevoked _ | .retainTunnels _ _ | .sendRetained _ _ _ | .removeRevoked _ _
  | .sendKept _ _ _ _ | .setStatus _ _ _ => true
  | _ => false

namespace Registry

variable {r r' : Registry} {a : Action} {stage : Section} {channel : CommandChannel}
  {id key : TransportSessionId}

/-! ## What a step does to the channels -/

inductive ChannelEffect (r : Registry) (a : Action) (r' : Registry) : Prop
  | same (hChannels : r'.channels = r.channels)
  | made (k : Nat) (session : AgentSession)
      (hAt : r.connections[k]? = some (.registering session))
      (hNext : r' = { r.setPhase k (.publishing session) with
        channels := r.channels.insert session.sessionId ⟨[], false⟩ })
  | ended (k : Nat) (session : AgentSession) (hAt : r.connections[k]? = some (.running session))
      (hNext : r' = r.endSession k session)
  | taken (k : Nat) (session : AgentSession) (command : SessionCommand)
      (queue : List SessionCommand) (closed : Bool)
      (hAt : r.connections[k]? = some (.running session))
      (hChannel : r.channels[session.sessionId]? = some ⟨command :: queue, closed⟩)
      (hNext : r' = { r with channels := r.channels.insert session.sessionId ⟨queue, closed⟩ })
  | opened (id : TransportSessionId) (live : LiveSession) (channel : CommandChannel)
      (hHolder : a = .holder) (hGate : r.gate = some (.enqueue id))
      (hLive : r.sessions[id]? = some live)
      (hChannel : r.channels[live.commands]? = some channel) (hOpen : channel.closed = false)
      (hRoom : channel.queue.length < r.config.sessionCommandCapacity)
      (hNext : r' = { r with
        channels := r.channels.insert live.commands
          { channel with queue := channel.queue ++ [.open] }
        log := r.log ++ [.opened id]
        gate := none })
  | revoked (sender : TransportSessionId) (rest : List TransportSessionId)
      (channel : CommandChannel) (hRuntime : r.runtime = .notifying (sender :: rest))
      (hChannel : r.channels[sender]? = some channel) (hOpen : channel.closed = false)
      (hRoom : channel.queue.length < r.config.sessionCommandCapacity)
      (hNext : r' = { r with
        runtime := .notifying rest
        channels := r.channels.insert sender
          { channel with queue := channel.queue ++ [.revokeAuthorization] } })

theorem enqueueIo_sends (h : r.enqueueIo id = .ok r') :
    ∃ (live : LiveSession) (channel : CommandChannel), r.sessions[id]? = some live ∧
      r.channels[live.commands]? = some channel ∧ channel.closed = false ∧
      channel.queue.length < r.config.sessionCommandCapacity ∧
      r' = { r with
        channels := r.channels.insert live.commands
          { channel with queue := channel.queue ++ [.open] }
        log := r.log ++ [.opened id] } := by
  unfold enqueueIo at h
  split at h
  · cases h
  · split at h
    · cases h
    · rename_i live hLive
      split at h
      · cases h
      · rename_i channel hChannel
        split at h <;> cases h
        rename_i hSend
        obtain ⟨hOpen, hRoom, rfl⟩ := trySend_eq_ok hSend
        exact ⟨live, channel, hLive, hChannel, hOpen, hRoom, rfl⟩

/-- Under the gate, only a router call touches a channel. -/
theorem runSection_channels (hGate : r.gate = some stage) :
    ChannelEffect r .holder (r.runSection stage) := by
  cases stage with
  | enqueue id =>
    simp only [runSection]
    split
    · exact .same rfl
    · rename_i hEnqueue
      obtain ⟨live, channel, hLive, hChannel, hOpen, hRoom, rfl⟩ := enqueueIo_sends hEnqueue
      exact .opened id live channel rfl hGate hLive hChannel hOpen hRoom rfl
  | reauthorize | collectRevoked | resolve =>
    simp only [runSection]
    split <;> exact .same rfl
  | _ => exact .same rfl

theorem notifyRevoked_sends (h : r.notifyRevoked = some r') :
    r'.channels = r.channels ∨ ∃ (sender : TransportSessionId) (rest : List TransportSessionId)
      (channel : CommandChannel), r.runtime = .notifying (sender :: rest) ∧
      r.channels[sender]? = some channel ∧ channel.closed = false ∧
      channel.queue.length < r.config.sessionCommandCapacity ∧
      r' = { r with
        runtime := .notifying rest
        channels := r.channels.insert sender
          { channel with queue := channel.queue ++ [.revokeAuthorization] } } := by
  unfold notifyRevoked at h
  split at h
  · cases h
    exact .inl rfl
  · rename_i sender rest hRuntime
    split at h
    · cases h
      exact .inl rfl
    · rename_i channel hChannel
      split at h <;> cases h
      · exact .inl rfl
      · rename_i hSend
        obtain ⟨hOpen, hRoom, rfl⟩ := trySend_eq_ok hSend
        exact .inr ⟨sender, rest, channel, hRuntime, hChannel, hOpen, hRoom, rfl⟩
  · cases h

/-- **What one step does to the channels.** -/
theorem channel_effect (h : r.step a = some r') : ChannelEffect r a r' := by
  cases a with
  | registered k =>
    simp only [step, registered] at h
    split at h
    · rename_i session hAt
      cases h
      exact .made k session hAt rfl
    · cases h
  | receive k =>
    simp only [step, receive] at h
    split at h
    · rename_i session hAt
      split at h
      · cases h
        exact .ended k session hAt rfl
      · rename_i command queue closed _ hChannel
        cases h
        exact .taken k session command queue closed hAt hChannel rfl
      · cases h
    · cases h
  | sessionEnds k =>
    simp only [step, sessionEnds] at h
    split at h
    · rename_i session hAt
      cases h
      exact .ended k session hAt rfl
    · cases h
  | notifyRevoked =>
    rcases notifyRevoked_sends h with
      hSame | ⟨sender, rest, channel, hRuntime, hChannel, hOpen, hRoom, hNext⟩
    · exact .same hSame
    · exact .revoked sender rest channel hRuntime hChannel hOpen hRoom hNext
  | holder =>
    obtain ⟨_, hGate, rfl⟩ := map_eq_some_iff.mp h
    exact runSection_channels hGate
  | publish =>
    simp only [step, publishSnapshot] at h
    repeat' split at h
    all_goals first
      | (cases h; exact .same rfl)
      | cases h
  | accept | register | claim | allocate | handshakeFails | lock | release | setSourceHealth
  | snapshotChanged | readSnapshot | sourceClosed | lockReconcile | openTunnel | openStream
  | stopAccepting =>
    simp only [step, accept, register, claim, allocate, handshakeFails, lock, release,
      snapshotChanged, readSnapshot, sourceClosed, lockReconcile, lockRouter] at h
    repeat' split at h
    all_goals first
      | (cases h; exact .same rfl)
      | cases h

/-! ## How sessions are reached -/

structure Wired (r : Registry) : Prop where
  /-- The runtime loop is inside the reconciliation that holds the gate. -/
  busy : r.gate.any Section.reconciles = true → ∃ update, r.runtime = .reconciling update
  keyed : ∀ id (live : LiveSession), r.sessions[id]? = some live → live.commands = id

theorem wired_bind (config : RegistryConfig) (mode : EdgeRegistrationMode)
    (health : SnapshotSourceHealth) (unseen : Bool) :
    Wired (bind config mode health unseen) where
  busy := by rintro ⟨⟩
  keyed := fun _ _ hLive => (by simp [bind] at hLive)

theorem Wired.congr (h : Wired r) (hGate : r'.gate = r.gate) (hRuntime : r'.runtime = r.runtime)
    (hSessions : r'.sessions = r.sessions) : Wired r' where
  busy := by
    rw [hGate, hRuntime]
    exact h.busy
  keyed := hSessions ▸ h.keyed

theorem Wired.runSection (h : Wired r) (hGate : r.gate = some stage) :
    Wired (r.runSection stage) := by
  have hBusy : stage.reconciles = true → ∃ update, r.runtime = .reconciling update := by
    simpa [hGate] using h.busy
  cases stage with
  | insertSession k session =>
    refine ⟨by rintro ⟨⟩, fun id live hLive => ?_⟩
    simp only [Registry.runSection, ExtTreeMap.getElem?_insert] at hLive
    split at hLive
    · rename_i hId
      cases hLive
      exact Std.compare_eq_iff_eq.mp hId
    · exact h.keyed id live hLive
  | removeSession =>
    refine ⟨by rintro ⟨⟩, fun id live hLive => ?_⟩
    simp only [Registry.runSection, ExtTreeMap.getElem?_erase] at hLive
    split at hLive
    · cases hLive
    · exact h.keyed id live hLive
  | removeRevoked =>
    refine ⟨hBusy, fun id live hLive => ?_⟩
    simp only [Registry.runSection, ExtTreeMap.getElem?_filter'] at hLive
    exact h.keyed id live (filter_eq_some_iff.mp hLive).1
  | reauthorize | resolve =>
    simp only [Registry.runSection]
    split <;> exact ⟨by rintro ⟨⟩, h.keyed⟩
  | collectRevoked =>
    simp only [Registry.runSection]
    split <;> exact ⟨hBusy, h.keyed⟩
  | enqueue id =>
    obtain ⟨_, _, hNext, -⟩ := r.runSection_enqueue id
    rw [hNext]
    exact ⟨by rintro ⟨⟩, h.keyed⟩
  | setStatus | sendBound | sendRemoved | sendInserted | insertTunnel | removeTunnel
  | sendUnbound => exact ⟨by rintro ⟨⟩, h.keyed⟩
  | retainTunnels | sendRetained | sendKept => exact ⟨hBusy, h.keyed⟩

/-- Outside a reconciliation the gate is not held by one. -/
theorem Wired.not_reconciles (h : Wired r) (hRuntime : ∀ update, r.runtime ≠ .reconciling update)
    (hGate : r.gate = some stage) : stage.reconciles = false := by
  cases hStage : stage.reconciles with
  | false => rfl
  | true =>
    obtain ⟨update, hUpdate⟩ := h.busy (by simp [hGate, hStage])
    exact absurd hUpdate (hRuntime update)

/-- The runtime loop goes on outside a reconciliation. -/
theorem Wired.goOn (h : Wired r) (hRuntime : ∀ update, r.runtime ≠ .reconciling update)
    (hGate : r'.gate = r.gate) (hSessions : r'.sessions = r.sessions) : Wired r' where
  busy := by
    rw [hGate]
    intro hReconciles
    obtain ⟨update, hUpdate⟩ := h.busy hReconciles
    exact absurd hUpdate (hRuntime update)
  keyed := hSessions ▸ h.keyed

/-- What one step does to the gate, the sessions, the runtime loop and the configuration. -/
inductive Turn (r : Registry) : Action → Registry → Prop
  | apart {a : Action} {r' : Registry} (hConfig : r'.config = r.config) (hGate : r'.gate = r.gate)
      (hSessions : r'.sessions = r.sessions) (hRuntime : r'.runtime = r.runtime) : Turn r a r'
  | takes {a : Action} {r' : Registry} (hTakes : r.Takes r') : Turn r a r'
  | holder (stage : Section) (hGate : r.gate = some stage) :
      Turn r .holder (r.runSection stage)
  | changed (hRuntime : r.runtime = .selecting) :
      Turn r .snapshotChanged { r with unseen := false, runtime := .changed }
  | reads (update : SnapshotUpdate) :
      Turn r .readSnapshot { r with runtime := .reconciling update }
  | notifies {r' : Registry} (hNotify : r.notifyRevoked = some r') : Turn r .notifyRevoked r'

theorem step_turn (h : r.step a = some r') : Turn r a r' := by
  cases a with
  | holder =>
    obtain ⟨stage, hGate, rfl⟩ := map_eq_some_iff.mp h
    exact .holder stage hGate
  | notifyRevoked => exact .notifies h
  | lock => exact .takes (takes_lock h)
  | lockReconcile => exact .takes (takes_lockReconcile h)
  | openTunnel tunnelId => exact .takes (takes_lockRouter (.resolve tunnelId) h)
  | openStream sessionId => exact .takes (takes_lockRouter (.enqueue sessionId) h)
  | snapshotChanged =>
    simp only [step, snapshotChanged] at h
    split at h
    · rename_i hRuntime
      split_ifs at h
      cases h
      exact .changed hRuntime
    · cases h
  | readSnapshot =>
    simp only [step, readSnapshot] at h
    split at h <;> cases h
    exact .reads _
  | _ =>
    simp only [step, accept, register, claim, allocate, registered, handshakeFails, receive,
      sessionEnds, release, publishSnapshot, sourceClosed] at h
    repeat' split at h
    all_goals first
      | (cases h; exact .apart rfl rfl rfl rfl)
      | cases h

theorem Wired.step (h : Wired r) (hStep : r.step a = some r') : Wired r' := by
  cases step_turn hStep with
  | apart _ hGate hSessions hRuntime => exact h.congr hGate hRuntime hSessions
  | takes hTakes =>
    obtain ⟨_, -, hEnters, rfl⟩ := hTakes
    refine ⟨fun hReconciles => ?_, h.keyed⟩
    cases hEnters with
    | reconcile update hRuntime => exact ⟨update, hRuntime⟩
    | _ => cases hReconciles
  | holder _ hGate => exact h.runSection hGate
  | changed hRuntime => exact h.goOn (by simp [hRuntime]) rfl rfl
  | reads => exact ⟨fun _ => ⟨_, rfl⟩, h.keyed⟩
  | notifies hNotify =>
    have hSame := notifyRevoked_same hNotify
    refine h.goOn (fun _ hRuntime => ?_) hSame.gate hSame.sessions
    simp only [notifyRevoked, hRuntime] at hNotify
    cases hNotify

/-! ## Receivers -/

/-- Whether the receiver of a session's channel is gone, if the channel was made. -/
def closedOf (r : Registry) (id : TransportSessionId) : Option Bool :=
  (r.channels[id]?).map CommandChannel.closed

/-- The receiver of a channel lives until its session ends. -/
def Flagged (r : Registry) : Prop :=
  ∀ k session closed, r.part Phase.flag k = some (session, closed) →
    r.closedOf session.sessionId = some closed

theorem closedOf_insert (hChannels : r'.channels = r.channels.insert key channel) :
    r'.closedOf id = if key = id then some channel.closed else r.closedOf id := by
  unfold closedOf
  rw [hChannels, ExtTreeMap.getElem?_insert]
  by_cases hKey : key = id
  · rw [if_pos hKey, if_pos (Std.compare_eq_iff_eq.mpr hKey)]
    rfl
  · rw [if_neg hKey, if_neg (fun hEq => hKey (Std.compare_eq_iff_eq.mp hEq))]

/-- A command that is sent or taken leaves the receiver as it is. -/
theorem closedOf_update (hChannels : r'.channels = r.channels.insert key channel')
    (hChannel : r.channels[key]? = some channel) (hClosed : channel'.closed = channel.closed)
    (id : TransportSessionId) : r'.closedOf id = r.closedOf id := by
  rw [closedOf_insert hChannels]
  split_ifs with hKey
  · subst hKey
    simp [closedOf, hChannel, hClosed]
  · rfl

/-- What a step does to the receivers: a connection makes its channel, or drops the
receiver of it. -/
theorem closedOf_step (h : r.step a = some r') : (∀ id, r'.closedOf id = r.closedOf id) ∨
      (∃ (k : Nat) (session : AgentSession), r.connections[k]? = some (.registering session) ∧
        ∀ id, r'.closedOf id = if session.sessionId = id then some false else r.closedOf id) ∨
      ∃ (k : Nat) (session : AgentSession), r.connections[k]? = some (.running session) ∧
        ∀ id, r'.closedOf id = if session.sessionId = id then some true else r.closedOf id := by
  cases channel_effect h with
  | same hChannels => exact .inl fun id => by simp only [closedOf, hChannels]
  | made k session hAt hNext =>
    have hChannels : r'.channels = r.channels.insert session.sessionId ⟨[], false⟩ := by
      rw [hNext]
    exact .inr (.inl ⟨k, session, hAt, fun id => closedOf_insert hChannels⟩)
  | ended k session hAt hNext =>
    have hChannels : r'.channels = r.channels.insert session.sessionId ⟨[], true⟩ := by
      rw [hNext]
      rfl
    exact .inr (.inr ⟨k, session, hAt, fun id => closedOf_insert hChannels⟩)
  | taken k session command queue closed hAt hChannel hNext
  | opened id live channel hHolder hGate hLive hChannel hOpen hRoom hNext
  | revoked _ _ _ _ hChannel _ _ hNext =>
    subst hNext
    exact .inl (closedOf_update rfl hChannel rfl)

theorem Flagged.anti (h : Flagged r) (hClosed : ∀ id, r'.closedOf id = r.closedOf id)
    (hFlags : ∀ k x, r'.part Phase.flag k = some x → r.part Phase.flag k = some x) :
    Flagged r' := by
  intro k session closed hFlag
  rw [hClosed]
  exact h k session closed (hFlags k _ hFlag)

/-- The connection that owns a channel makes it or drops its receiver. -/
theorem Flagged.owner (h : Flagged r) (hOwned : Owned r) {k : Nat} {p : Phase} (p' : Phase)
    {session : AgentSession} (hAt : r.connections[k]? = some p)
    (hSession : p.session = some session) (hFlag : p'.flag = some (session, channel.closed))
    (hConnections : r'.connections = (r.setPhase k p').connections)
    (hChannels : r'.channels = r.channels.insert session.sessionId channel) : Flagged r' := by
  intro j other closed hOther
  have hParts : r'.part Phase.flag j = (r.setPhase k p').part Phase.flag j := by
    simp only [part, hConnections]
  rw [hParts, part_setPhase hAt] at hOther
  rw [closedOf_insert hChannels]
  split_ifs at hOther with hj
  · cases hFlag.symm.trans hOther
    rw [if_pos rfl]
  · -- another connection has another session
    have hNe : session.sessionId ≠ other.sessionId := by
      intro hId
      obtain ⟨q, hq, hqFlag⟩ := bind_eq_some_iff.mp hOther
      refine hj (hOwned.idOnce j k other session ?_ ?_ hId.symm)
      · rw [part_at hq]
        cases q <;> cases hqFlag <;> rfl
      · rw [part_at hAt]
        exact hSession
    rw [if_neg hNe]
    exact h j other closed hOther

/-- A connection without a channel, or with the same receiver, moves. -/
theorem flags_setPhase {k : Nat} {p p' : Phase} (hAt : r.connections[k]? = some p)
    (hFlag : p'.flag = none ∨ p'.flag = p.flag) (j : Nat) (x : AgentSession × Bool)
    (h : (r.setPhase k p').part Phase.flag j = some x) : r.part Phase.flag j = some x := by
  rw [part_setPhase hAt] at h
  split_ifs at h with hj
  · subst hj
    rw [part_at hAt]
    rcases hFlag with hNone | hSame
    · cases hNone.symm.trans h
    · exact hSame ▸ h
  · exact h

theorem Flagged.runSection (h : Flagged r) (hHeld : Held r) (hGate : r.gate = some stage) :
    Flagged (r.runSection stage) := by
  have hAt := fun k p => hHeld stage k p hGate
  cases stage with
  | insertSession k | sendBound k =>
    exact h.anti (fun _ => rfl) (flags_setPhase (hAt k _ rfl) (.inr rfl))
  | removeSession k | sendRemoved k =>
    exact h.anti (fun _ => rfl) (flags_setPhase (hAt k _ rfl) (.inl rfl))
  | reauthorize k =>
    simp only [Registry.runSection]
    split
    · exact h.anti (fun _ => rfl) (fun _ _ hx => hx)
    · exact h.anti (fun _ => rfl) (flags_setPhase (hAt k _ rfl) (.inl rfl))
  | collectRevoked | resolve =>
    simp only [Registry.runSection]
    split <;> exact h.anti (fun _ => rfl) (fun _ _ hx => hx)
  | enqueue id =>
    simp only [Registry.runSection]
    split
    · exact h.anti (fun _ => rfl) (fun _ _ hx => hx)
    · rename_i hOk
      obtain ⟨_, _, -, hChannel, -, -, rfl⟩ := enqueueIo_sends hOk
      exact h.anti (closedOf_update rfl hChannel rfl) (fun _ _ hx => hx)
  | _ => exact h.anti (fun _ => rfl) (fun _ _ hx => hx)

theorem Flagged.step (h : Flagged r) (hSound : Sound r) (hStep : r.step a = some r') :
    Flagged r' := by
  cases a with
  | holder =>
    obtain ⟨_, hGate, rfl⟩ := map_eq_some_iff.mp hStep
    exact h.runSection hSound.held hGate
  | registered k =>
    simp only [Registry.step, registered] at hStep
    split at hStep <;> cases hStep
    rename_i session hAt
    exact h.owner hSound.owned (.publishing session) hAt rfl rfl rfl rfl
  | receive k =>
    simp only [Registry.step, receive] at hStep
    split at hStep
    · rename_i session hAt
      split at hStep <;> cases hStep
      · exact h.owner hSound.owned (.removing session) hAt rfl rfl rfl rfl
      · rename_i hChannel
        exact h.anti (closedOf_update rfl hChannel rfl) (fun _ _ hx => hx)
    · cases hStep
  | sessionEnds k =>
    simp only [Registry.step, sessionEnds] at hStep
    split at hStep <;> cases hStep
    rename_i session hAt
    exact h.owner hSound.owned (.removing session) hAt rfl rfl rfl rfl
  | notifyRevoked =>
    have hConnections := (notifyRevoked_same hStep).connections
    refine h.anti ?_ (fun k x hx => by simpa only [part, hConnections] using hx)
    rcases notifyRevoked_sends hStep with hSame | ⟨_, _, _, -, hChannel, -, -, rfl⟩
    · intro _
      simp only [closedOf, hSame]
    · exact closedOf_update rfl hChannel rfl
  | accept =>
    simp only [Registry.step, accept] at hStep
    split at hStep
    · split_ifs at hStep <;> cases hStep
      · exact h.anti (fun _ => rfl) (fun k x hx => (part_accept rfl k).symm.trans hx)
      · exact h
    · cases hStep
  | _ =>
    simp only [Registry.step, register, claim, allocate, handshakeFails, release, lock,
      publishSnapshot, snapshotChanged, readSnapshot, sourceClosed, lockReconcile, lockRouter]
      at hStep
    repeat' split at hStep
    all_goals first
      | (cases hStep; exact h.anti (fun _ => rfl) (fun _ _ hx => hx))
      | (cases hStep; exact h.anti (fun _ => rfl) (flags_setPhase (by assumption) (.inl rfl)))
      | cases hStep

end Registry

end TunnelProxy.Edge
