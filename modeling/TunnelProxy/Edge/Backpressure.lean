import TunnelProxy.Edge.Coherence
import TunnelProxy.Edge.Commands

/-!
# The runtime loop and full command queues

`reconcile_authorization_snapshot` runs inside a branch of the runtime loop, and sends
`RevokeAuthorization` to each removed session with a `send` that waits for room. The queue
of a session that does not take its commands is filled by public opens, and then the loop
neither accepts Agents nor reconciles nor sees the shutdown signal
(`revocation_waits_for_room`). When every open leaves one place free, the loop never waits
there: a session is revoked once, and that place is for it (`revocation_never_waits`).
-/

namespace TunnelProxy.Edge

open Std Common Control Transition List Option

/-- The sessions a reconciliation is about to remove. -/
def Section.removing : Section → List TransportSessionId
  | .retainTunnels _ revoked | .sendRetained _ revoked _ | .removeRevoked _ revoked => revoked
  | _ => []

/-- The removed sessions that are still to be told, while the gate is held. -/
def Section.senders : Section → Option (List TransportSessionId)
  | .sendKept _ _ senders _ | .setStatus _ _ senders => some senders
  | _ => none

namespace Registry

/-- The steps of the runtime loop. -/
def Action.ofLoop : Action → Bool
  | .accept _ | .snapshotChanged | .readSnapshot | .sourceClosed | .lockReconcile
  | .notifyRevoked => true
  | _ => false

variable {r r' : Registry} {a : Action} {stage : Section} {senders : List TransportSessionId}

/-- An open leaves one place free in the queue of its session. -/
def sparing (r : Registry) : Action → Prop
  | .holder =>
    match r.gate with
    | some (.enqueue id) =>
      match r.sessions[id]? with
      | some live =>
        match r.channels[live.commands]? with
        | some channel => channel.queue.length + 1 < r.config.sessionCommandCapacity
        | none => True
      | none => True
    | _ => True
  | _ => True

instance (r : Registry) (a : Action) : Decidable (r.sparing a) := by
  unfold sparing
  repeat' split
  all_goals infer_instance

/-- The removed sessions that are still to be told. -/
def toNotify (r : Registry) : List TransportSessionId :=
  match r.gate.bind Section.senders with
  | some senders => senders
  | none =>
    match r.runtime with
    | .notifying senders => senders
    | _ => []

/-- The runtime loop waits for room in the queue of a session. -/
def waitsForRoom (r : Registry) : Bool :=
  match r.runtime with
  | .notifying (sender :: _) =>
    match r.channels[sender]? with
    | some channel => !channel.closed && r.config.sessionCommandCapacity ≤ channel.queue.length
    | none => false
  | _ => false

/-- While it waits, the loop neither accepts nor reconciles. -/
theorem step_of_waitsForRoom (h : r.waitsForRoom = true) (hLoop : a.ofLoop = true) :
    r.step a = none := by
  unfold waitsForRoom at h
  split at h
  · rename_i hRuntime
    split at h
    · rename_i hChannel
      simp only [Bool.and_eq_true, Bool.not_eq_true', decide_eq_true_eq] at h
      cases a with
      | notifyRevoked =>
        simp [step, notifyRevoked, hRuntime, hChannel, CommandChannel.trySend, h.1, h.2]
      | accept | snapshotChanged | readSnapshot | sourceClosed | lockReconcile =>
        simp [step, accept, snapshotChanged, readSnapshot, sourceClosed, lockReconcile, hRuntime]
      | _ => cases hLoop
    · cases h
  · cases h

/-! ## What a step keeps -/

theorem log_step (h : r.step a = some r') : r.log ⊆ r'.log := by
  obtain ⟨r₁, hEffect, hSame⟩ := step_effect h
  rw [hSame.log]
  cases hEffect with
  | holder stage hGate =>
    cases stage with
    | insertSession | removeRevoked => exact subset_append_left _ _
    | removeSession =>
      simp only [runSection]
      split
      · exact subset_append_left _ _
      · exact Subset.refl _
    | reauthorize | collectRevoked | resolve =>
      simp only [runSection]
      split <;> exact Subset.refl _
    | enqueue id =>
      obtain ⟨_, _, hNext, -⟩ := r.runSection_enqueue id
      rw [hNext]
      exact subset_append_left _ _
    | _ => exact Subset.refl _
  | _ => exact Subset.refl _

theorem config_runSection (stage : Section) : (r.runSection stage).config = r.config := by
  cases stage with
  | reauthorize | collectRevoked | resolve =>
    simp only [runSection]
    split <;> rfl
  | enqueue id =>
    obtain ⟨_, _, hNext, -⟩ := r.runSection_enqueue id
    rw [hNext]
  | _ => rfl

theorem config_step (h : r.step a = some r') : r'.config = r.config := by
  cases step_turn h with
  | apart hConfig => exact hConfig
  | takes hTakes =>
    obtain ⟨_, -, -, rfl⟩ := hTakes
    rfl
  | holder stage => exact config_runSection stage
  | changed | reads => rfl
  | notifies hNotify =>
    unfold notifyRevoked at hNotify
    repeat' split at hNotify
    all_goals first
      | (cases hNotify; rfl)
      | cases hNotify

/-- The gate tells as before, and the loop has at most what it had. -/
theorem toNotify_sublist (hGate : r'.gate.bind Section.senders = r.gate.bind Section.senders)
    (hRuntime : r'.runtime = r.runtime ∨ ∀ senders, r'.runtime ≠ .notifying senders) :
    r'.toNotify.Sublist r.toNotify := by
  unfold toNotify
  rw [hGate]
  split
  · exact Sublist.refl _
  · rcases hRuntime with hRuntime | hRuntime
    · rw [hRuntime]
    · split
      · rename_i senders hNotifying
        exact absurd hNotifying (hRuntime senders)
      · exact nil_sublist _

theorem toNotify_runSection (hGate : r.gate = some stage) :
    (r.runSection stage).toNotify.Sublist r.toNotify ∨
      ∃ update revoked, stage = .removeRevoked update revoked := by
  cases stage with
  | removeRevoked update revoked => exact .inr ⟨update, revoked, rfl⟩
  | setStatus | sendKept =>
    refine .inl ?_
    simp [toNotify, runSection, hGate, Section.senders]
  | collectRevoked =>
    refine .inl ?_
    simp only [runSection]
    split
    · simp [toNotify, Section.senders]
    · exact toNotify_sublist (by simp [hGate, Section.senders]) (.inl rfl)
  | reauthorize | resolve =>
    refine .inl ?_
    simp only [runSection]
    split <;> exact toNotify_sublist (by simp [hGate, Section.senders, leave]) (.inl rfl)
  | enqueue id =>
    obtain ⟨_, _, hNext, -⟩ := r.runSection_enqueue id
    rw [hNext]
    exact .inl (toNotify_sublist (by simp [hGate, Section.senders]) (.inl rfl))
  | _ =>
    exact .inl (toNotify_sublist (by simp [runSection, hGate, Section.senders, leave])
      (.inl rfl))

/-- While the loop tells sessions, no reconciliation holds the gate. -/
theorem Wired.toNotify_eq (h : Wired r)
    (hRuntime : r.runtime = .notifying senders) : r.toNotify = senders := by
  have hGate : r.gate.bind Section.senders = none := by
    cases hStage : r.gate with
    | none => rfl
    | some stage =>
      have hReconciles := h.not_reconciles (by simp [hRuntime]) hStage
      cases stage <;> first | rfl | cases hReconciles
  simp only [toNotify, hGate, hRuntime]

theorem notifyRevoked_next (h : r.notifyRevoked = some r') :
    r.runtime = .notifying [] ∧ r'.runtime = .selecting ∨
      ∃ sender rest, r.runtime = .notifying (sender :: rest) ∧ r'.runtime = .notifying rest := by
  unfold notifyRevoked at h
  split at h
  · rename_i hRuntime
    cases h
    exact .inl ⟨hRuntime, rfl⟩
  · rename_i sender rest hRuntime
    refine .inr ⟨sender, rest, hRuntime, ?_⟩
    repeat' split at h
    all_goals first
      | (cases h; rfl)
      | cases h
  · cases h

theorem toNotify_step (h : Wired r) (hStep : r.step a = some r') :
    r'.toNotify.Sublist r.toNotify ∨ ∃ update revoked,
      r.gate = some (.removeRevoked update revoked) ∧
        r' = r.runSection (.removeRevoked update revoked) := by
  have hWired := h.step hStep
  cases step_turn hStep with
  | apart _ hGate _ hRuntime => exact .inl (toNotify_sublist (by rw [hGate]) (.inl hRuntime))
  | takes hTakes =>
    obtain ⟨_, hFree, hEnters, rfl⟩ := hTakes
    refine .inl (toNotify_sublist ?_ (.inl rfl))
    rw [hFree]
    cases hEnters <;> rfl
  | holder _ hGate =>
    refine (toNotify_runSection hGate).imp_right ?_
    rintro ⟨update, revoked, rfl⟩
    exact ⟨update, revoked, hGate, rfl⟩
  | changed | reads => exact .inl (toNotify_sublist rfl (by simp))
  | notifies hNotify =>
    rcases notifyRevoked_next hNotify with ⟨-, hNext⟩ | ⟨sender, rest, hRuntime, hNext⟩
    · exact .inl (toNotify_sublist (by rw [(notifyRevoked_same hNotify).gate]) (by simp [hNext]))
    · rw [h.toNotify_eq hRuntime, hWired.toNotify_eq hNext]
      exact .inl (sublist_cons_self sender rest)

/-! ## The free place -/

/-- What a queue holds: fewer opens than places, and a revocation only if the session was
removed and has been told. -/
structure QueueOk (r : Registry) (id : TransportSessionId)
    (queue : List SessionCommand) : Prop where
  opens : queue.count .open < r.config.sessionCommandCapacity
  plain : .beginDrain ∉ queue
  once : .revokeAuthorization ∈ queue → .removed id ∈ r.log ∧ id ∉ r.toNotify

structure Spare (r : Registry) : Prop where
  capacity : 0 < r.config.sessionCommandCapacity
  distinct : ∀ stage, r.gate = some stage → stage.removing.Nodup
  senders : r.toNotify.Nodup
  gone : ∀ id ∈ r.toNotify, .removed id ∈ r.log
  queues : ∀ (id : TransportSessionId) (channel : CommandChannel),
    r.channels[id]? = some channel → r.QueueOk id channel.queue

section

variable {id : TransportSessionId} {queue : List SessionCommand}

theorem QueueOk.nil (h : 0 < r.config.sessionCommandCapacity) : r.QueueOk id [] where
  opens := h
  plain := not_mem_nil
  once := nofun

theorem QueueOk.tail {command : SessionCommand} (h : r.QueueOk id (command :: queue)) :
    r.QueueOk id queue where
  opens := Nat.lt_of_le_of_lt count_le_count_cons h.opens
  plain := fun hDrain => h.plain (mem_cons_of_mem _ hDrain)
  once := fun hRevoke => h.once (mem_cons_of_mem _ hRevoke)

theorem QueueOk.mono (h : r.QueueOk id queue) (hConfig : r'.config = r.config)
    (hLog : r.log ⊆ r'.log) (hTold : .removed id ∈ r.log → id ∉ r.toNotify → id ∉ r'.toNotify) :
    r'.QueueOk id queue where
  opens := by
    rw [hConfig]
    exact h.opens
  plain := h.plain
  once := by
    intro hRevoke
    obtain ⟨hRemoved, hNot⟩ := h.once hRevoke
    exact ⟨hLog hRemoved, hTold hRemoved hNot⟩

end

/-- A session that is still to be told has room for it. -/
theorem Spare.room (h : Spare r) {id : TransportSessionId} {channel : CommandChannel}
    (hId : id ∈ r.toNotify) (hChannel : r.channels[id]? = some channel) :
    channel.queue.length < r.config.sessionCommandCapacity := by
  have hQueue := h.queues id channel hChannel
  have hAll : ∀ command ∈ channel.queue, SessionCommand.open = command := by
    intro command hCommand
    cases command with
    | «open» => rfl
    | beginDrain => exact absurd hCommand hQueue.plain
    | revokeAuthorization => exact absurd hId (hQueue.once hCommand).2
  have hCount := hQueue.opens
  rwa [count_eq_length.mpr hAll] at hCount

theorem distinct_runSection {next : Section} (h : stage.removing.Nodup)
    (hNext : (r.runSection stage).gate = some next) : next.removing.Nodup := by
  cases stage with
  | collectRevoked =>
    simp only [runSection] at hNext
    split at hNext <;> cases hNext
    · exact nodup_nil
    · show (revokedIds _ _).Nodup
      rw [revokedIds, Nodup, pairwise_map]
      refine (r.sessions.distinct_keys_toList.filter _).imp ?_
      intro _ _ hNe hEq
      exact hNe (Std.compare_eq_iff_eq.mpr hEq)
  | retainTunnels | sendRetained =>
    cases hNext
    exact h
  | reauthorize | resolve =>
    simp only [runSection] at hNext
    split at hNext <;> cases hNext
    exact nodup_nil
  | enqueue =>
    simp only [runSection] at hNext
    split at hNext <;> cases hNext
  | sendBound | sendRemoved | setStatus => cases hNext
  | _ =>
    cases hNext
    exact nodup_nil

/-- The lists that a reconciliation carries have no duplicates. -/
theorem distinct_step (h : ∀ stage, r.gate = some stage → stage.removing.Nodup)
    (hStep : r.step a = some r') : ∀ stage, r'.gate = some stage → stage.removing.Nodup := by
  intro next hNext
  obtain ⟨r₁, hEffect, hSame⟩ := step_effect hStep
  rw [hSame.gate] at hNext
  cases hEffect with
  | holder stage hGate => exact distinct_runSection (h stage hGate) hNext
  | lock stage _ hEnters =>
    cases hNext
    cases hEnters <;> exact nodup_nil
  | _ => exact h next hNext

/-- The sessions that `removeRevoked` has to tell are those it removes. -/
theorem Wired.toNotify_removeRevoked (h : Wired r) (update : SnapshotUpdate)
    (revoked : List TransportSessionId) :
    (r.runSection (.removeRevoked update revoked)).toNotify = revoked.filter (· ∈ r.sessions) := by
  show revoked.filterMap _ = _
  induction revoked with
  | nil => rfl
  | cons id _ ih =>
    rw [filterMap_cons, filter_cons]
    cases hLive : r.sessions[id]? with
    | none =>
      have hNot : id ∉ r.sessions := by
        rw [TreeMap.mem_iff_exists]
        rintro ⟨_, hSome⟩
        cases hLive.symm.trans hSome
      simpa [hNot] using ih
    | some live =>
      have hMem : id ∈ r.sessions := TreeMap.mem_iff_exists.mpr ⟨live, hLive⟩
      simpa [hMem, h.keyed id live hLive] using ih

/-- What a step does to the sessions that are to be told keeps the invariant. -/
theorem Spare.told (h : Spare r) (hSound : Sound r) (hWired : Wired r)
    (hStep : r.step a = some r') :
    r'.toNotify.Nodup ∧ (∀ id ∈ r'.toNotify, .removed id ∈ r'.log) ∧
      ∀ id, .removed id ∈ r.log → id ∉ r.toNotify → id ∉ r'.toNotify := by
  rcases toNotify_step hWired hStep with hSub | ⟨_, _, hGate, rfl⟩
  · exact ⟨h.senders.sublist hSub, fun id hId => log_step hStep (h.gone id (hSub.subset hId)),
      fun id _ hNot hId => hNot (hSub.subset hId)⟩
  · rw [hWired.toNotify_removeRevoked]
    refine ⟨(h.distinct _ hGate).filter _, ?_, ?_⟩
    · intro _ hId
      exact mem_append_right _ (mem_map_of_mem hId)
    · -- what was removed before is not registered
      intro id hRemoved _ hId
      exact (hSound.owned.removed id hRemoved).2 (by simpa using (mem_filter.mp hId).2)

/-- **Step lemma**, as long as opens leave room. -/
theorem Spare.step (h : Spare r) (hSound : Sound r) (hWired : Wired r) (hSparing : r.sparing a)
    (hStep : r.step a = some r') : Spare r' := by
  obtain ⟨hSenders, hGone, hTold⟩ := h.told hSound hWired hStep
  have hConfig := config_step hStep
  have hLog := log_step hStep
  have hKeep : ∀ (id : TransportSessionId) (queue : List SessionCommand),
      r.QueueOk id queue → r'.QueueOk id queue := fun id queue hQueue =>
    hQueue.mono hConfig hLog (hTold id)
  have hNil : ∀ id : TransportSessionId, r'.QueueOk id [] := fun id =>
    hKeep id [] (.nil h.capacity)
  -- one channel changes
  have hInsert : ∀ (key : TransportSessionId) (new : CommandChannel),
      r'.channels = r.channels.insert key new → r'.QueueOk key new.queue →
      ∀ (id : TransportSessionId) (channel : CommandChannel), r'.channels[id]? = some channel →
        r'.QueueOk id channel.queue := by
    intro key new hChannels hNew id channel hChannel
    rw [hChannels, ExtTreeMap.getElem?_insert] at hChannel
    split at hChannel
    · rename_i hKey
      cases hChannel
      rw [← Std.compare_eq_iff_eq.mp hKey]
      exact hNew
    · exact hKeep id _ (h.queues id channel hChannel)
  refine ⟨hConfig ▸ h.capacity, distinct_step h.distinct hStep, hSenders, hGone, ?_⟩
  cases channel_effect hStep with
  | same hChannels =>
    intro id channel hChannel
    rw [hChannels] at hChannel
    exact hKeep id _ (h.queues id channel hChannel)
  | made _ session _ hNext => exact hInsert session.sessionId _ (by rw [hNext]) (hNil _)
  | ended _ session _ hNext => exact hInsert session.sessionId _ (by rw [hNext]; rfl) (hNil _)
  | taken _ session _ _ _ _ hChannel hNext =>
    exact hInsert session.sessionId _ (by rw [hNext]) (hKeep _ _ (h.queues _ _ hChannel).tail)
  | opened _ live _ hHolder hGate hLive hChannel _ _ hNext =>
    subst hHolder
    simp only [sparing, hGate, hLive, hChannel] at hSparing
    have hQueue := h.queues _ _ hChannel
    refine hInsert live.commands _ (by rw [hNext])
      (hKeep _ _ ⟨?_, by simpa using hQueue.plain,
        fun hRevoke => hQueue.once (by simpa using hRevoke)⟩)
    rw [count_append, count_singleton_self]
    exact (Nat.succ_le_succ count_le_length).trans_lt hSparing
  | revoked sender rest _ hRuntime hChannel _ _ hNext =>
    -- the sender leaves the list of those that are still to be told
    have hMem : sender ∈ r.toNotify := by
      rw [hWired.toNotify_eq hRuntime]
      exact mem_cons_self
    have hDistinct := h.senders
    rw [hWired.toNotify_eq hRuntime] at hDistinct
    have hTail : r'.toNotify = rest := (hWired.step hStep).toNotify_eq (by rw [hNext])
    refine hInsert sender _ (by rw [hNext]) ?_
    have hOk := hKeep _ _ (h.queues _ _ hChannel)
    refine ⟨by simpa [count_append] using hOk.opens, by simpa using hOk.plain,
      fun _ => ⟨hLog (h.gone sender hMem), ?_⟩⟩
    rw [hTail]
    exact (nodup_cons.mp hDistinct).1

/-! ## The loop goes on -/

structure Flowing (r : Registry) : Prop where
  sound : Sound r
  wired : Wired r
  spare : Spare r

theorem Flowing.step (h : Flowing r) (hSparing : r.sparing a) (hStep : r.step a = some r') :
    Flowing r' := by
  exact ⟨h.sound.step hStep, h.wired.step hStep, h.spare.step h.sound h.wired hSparing hStep⟩

theorem Flowing.notifies (h : Flowing r)
    (hRuntime : r.runtime = .notifying senders) : ∃ r', r.notifyRevoked = some r' := by
  unfold notifyRevoked
  rw [hRuntime]
  cases senders with
  | nil => exact ⟨_, rfl⟩
  | cons sender =>
    dsimp only
    cases hChannel : r.channels[sender]? with
    | none => exact ⟨_, rfl⟩
    | some channel =>
      dsimp only
      cases hSend : channel.trySend r.config.sessionCommandCapacity .revokeAuthorization with
      | ok => exact ⟨_, rfl⟩
      | error error =>
        cases error with
        | closed => exact ⟨_, rfl⟩
        | full =>
          have hMem : sender ∈ r.toNotify := by
            rw [h.wired.toNotify_eq hRuntime]
            exact mem_cons_self
          exact absurd (h.spare.room hMem hChannel)
            (Nat.not_lt.mpr (CommandChannel.trySend_full hSend))

/-- The loop comes back to its `select!` by steps of its own. -/
theorem Flowing.comesBack (h : Flowing r) (hRuntime : r.runtime = .notifying senders) :
    ∃ r', exec Registry.step r
      (List.replicate (senders.length + 1) .notifyRevoked) = some r' ∧ r'.runtime = .selecting := by
  induction senders generalizing r with
  | nil =>
    obtain ⟨r', hNotify⟩ := h.notifies hRuntime
    refine ⟨r', exec_cons_eq_some.mpr ⟨r', hNotify, rfl⟩, ?_⟩
    rcases notifyRevoked_next hNotify with ⟨-, hNext⟩ | ⟨_, _, hCons, -⟩
    · exact hNext
    · cases hRuntime.symm.trans hCons
  | cons _ rest ih =>
    obtain ⟨r₁, hNotify⟩ := h.notifies hRuntime
    have hFlowing : Flowing r₁ := h.step (a := .notifyRevoked) trivial hNotify
    have hRest : r₁.runtime = .notifying rest := by
      rcases notifyRevoked_next hNotify with ⟨hNil, -⟩ | ⟨_, _, hCons, hNext⟩
      · cases hRuntime.symm.trans hNil
      · cases hRuntime.symm.trans hCons
        exact hNext
    obtain ⟨r', hRun, hSelecting⟩ := ih hFlowing hRest
    exact ⟨r', exec_cons_eq_some.mpr ⟨r₁, hNotify, hRun⟩, hSelecting⟩

/-- When every open leaves one place free in the queue of its session, the runtime loop
never waits for room in a queue, and comes back from a reconciliation by its own steps. -/
theorem revocation_never_waits {config : RegistryConfig} {mode : EdgeRegistrationMode}
    {health : SnapshotSourceHealth} {unseen : Bool} {actions : List Action}
    (hCapacity : 0 < config.sessionCommandCapacity)
    (hSparing : Guarded Registry.step sparing (bind config mode health unseen) actions)
    (hRun : exec Registry.step (bind config mode health unseen) actions = some r) :
    r.waitsForRoom = false ∧ ∀ senders, r.runtime = .notifying senders →
      ∃ r', exec Registry.step r
        (List.replicate (senders.length + 1) .notifyRevoked) = some r' ∧
          r'.runtime = .selecting := by
  have h : Flowing r := exec_induction_guarded
    (fun _ _ _ hFlowing hGuard hStep => hFlowing.step hGuard hStep)
    ⟨sound_bind config mode health unseen, wired_bind config mode health unseen,
      ⟨hCapacity, by rintro _ ⟨⟩, nodup_nil, by rintro _ ⟨⟩, by simp [bind]⟩⟩ hSparing hRun
  refine ⟨?_, fun senders hRuntime => h.comesBack hRuntime⟩
  unfold waitsForRoom
  split
  · rename_i sender rest hRuntime
    split
    · rename_i hChannel
      have hMem : sender ∈ r.toNotify := by
        rw [h.wired.toNotify_eq hRuntime]
        exact mem_cons_self
      have hRoom := h.spare.room hMem hChannel
      simp [Nat.not_le.mpr hRoom]
    · rfl
  · rfl

end Registry

namespace RegistryExample

/-- The second snapshot is reconciled, up to the first message to a revoked session. -/
def reconcileWeb : List Registry.Action :=
  [.publish second, .snapshotChanged, .readSnapshot, .lockReconcile] ++ holder 6

def untilRevoke : List Registry.Action := connected.flatten ++ reconcileWeb

/-- Two places in each queue. -/
def roomy : Registry := .bind ⟨3, 2⟩ (.mutualTls first true) .live false

/-- The loop is about to send to session 1, whose queue holds the open. -/
def tellsFirst (r : Registry) : Bool :=
  (match r.runtime with
    | .notifying [sender] => sender = 1
    | _ => false) && r.channels[1]? = some ⟨[.open], false⟩

theorem runtime_of_tellsFirst {r : Registry} (h : tellsFirst r = true) :
    r.runtime = .notifying [1] := by
  unfold tellsFirst at h
  split at h
  · rename_i hRuntime
    rw [hRuntime]
    simp only [Bool.and_eq_true, decide_eq_true_eq] at h
    rw [h.1]
  · simp at h

end RegistryExample

namespace Registry

open RegistryExample

/-- One place was left free, and the loop comes back after two steps. -/
theorem revocation_never_waits_roomy :
    ∃ r r', exec Registry.step roomy untilRevoke = some r ∧ r.runtime = .notifying [1] ∧
      exec Registry.step r [.notifyRevoked, .notifyRevoked] = some r' ∧
      r'.runtime = .selecting := by
  obtain ⟨r, hr, hTells⟩ : ∃ r, exec Registry.step roomy untilRevoke = some r ∧ tellsFirst r := by
    decide +kernel
  have hSparing : Guarded Registry.step sparing roomy untilRevoke := by
    decide +kernel
  have hRuntime := runtime_of_tellsFirst hTells
  obtain ⟨-, hBack⟩ := revocation_never_waits (by decide) hSparing hr
  obtain ⟨r', hr', hSelecting⟩ := hBack [1] hRuntime
  exact ⟨r, r', hr, hRuntime, hr', hSelecting⟩

/-- An open took the only place in the queue of the session that is then revoked: the loop
waits for room there, and takes no step of any kind. -/
theorem revocation_waits_for_room :
    ∃ r, exec Registry.step initial untilRevoke = some r ∧
      r.waitsForRoom = true ∧ ∀ a : Action, a.ofLoop = true → r.step a = none := by
  obtain ⟨r, hr, hWaits⟩ : ∃ r, exec Registry.step initial untilRevoke = some r ∧
      waitsForRoom r := by decide +kernel
  exact ⟨r, hr, hWaits, fun a hLoop => step_of_waitsForRoom hWaits hLoop⟩

end Registry

end TunnelProxy.Edge
