import TunnelProxy.Edge.Ownership

/-!
# Coherence of the registry

The session map, the tunnel map and the two watch lists are written one after another by
whoever holds the gate. The invariant `Coherent` says by how much they may differ at
each point of a section: which sessions are in one map and not in the other (`hidden`),
and which list is computed and not sent yet (`sessionSnapshot`, `tunnelSnapshot`). With
the gate free nothing is hidden and nothing is left to send, which is `registry_coherent`.
-/

namespace TunnelProxy.Edge

open Std Common Control Transition List Option

/-! ## How far a section is -/

namespace Section

/-- The sessions in the session map whose tunnels are not in the tunnel map. -/
def hidden : Section → List TransportSessionId
  | .sendInserted _ session _ | .insertTunnel _ session
  | .sendUnbound _ session _ | .removeSession _ session => [session.sessionId]
  | .sendRetained _ revoked _ | .removeRevoked _ revoked => revoked
  | _ => []

/-- The session that was inserted and whose tunnel is not yet. -/
def unbound : Section → Option AgentSession
  | .sendInserted _ session _ | .insertTunnel _ session => some session
  | _ => none

/-- The list of session ids that is still to be sent. -/
def sessionSnapshot : Section → Option (List TransportSessionId)
  | .sendInserted _ _ snapshot | .sendRemoved _ _ snapshot | .sendKept _ _ _ snapshot =>
    some snapshot
  | _ => none

/-- The list of bindings that is still to be sent. -/
def tunnelSnapshot : Section → Option (List (TunnelId × TransportSessionId))
  | .sendBound _ _ snapshot | .sendUnbound _ _ snapshot | .sendRetained _ _ snapshot =>
    some snapshot
  | _ => none

end Section

namespace Registry

variable {r r' : Registry} {stage : Section}

/-- The registration of `id` is for `tunnelId`. -/
def Registers (r : Registry) (id : TransportSessionId) (tunnelId : TunnelId) : Prop :=
  ∃ live, r.sessions[id]? = some live ∧ live.authorization.tunnelId = tunnelId

/-- What the two maps have to do with each other while `hidden` differ. -/
def Bound (r : Registry) (hidden : List TransportSessionId) : Prop :=
  ∀ (tunnelId : TunnelId) (id : TransportSessionId),
    r.tunnels[tunnelId]? = some id ↔ id ∉ hidden ∧ r.Registers id tunnelId

/-- The maps and lists agree up to what the operation at the gate still has to do. -/
structure CoherentAt (r : Registry) (gate : Option Section) : Prop where
  bound : r.Bound ((gate.map Section.hidden).getD [])
  unbound : ∀ session, gate.bind Section.unbound = some session →
    r.sessions[session.sessionId]? = some ⟨session.sessionId, session.authorization⟩
  sessionIds : (gate.bind Section.sessionSnapshot).getD r.sessionUpdates =
    sortedSessionIds r.sessions
  tunnelBindings : (gate.bind Section.tunnelSnapshot).getD r.tunnelUpdates =
    sortedTunnelBindings r.tunnels
  notReplaced : r.replacedTunnel = false

abbrev Coherent (r : Registry) : Prop := r.CoherentAt r.gate

/-- The invariant looks at six fields. -/
theorem Coherent.congr (h : Coherent r) (hSessions : r'.sessions = r.sessions)
    (hTunnels : r'.tunnels = r.tunnels) (hGate : r'.gate = r.gate)
    (hSessionUpdates : r'.sessionUpdates = r.sessionUpdates)
    (hTunnelUpdates : r'.tunnelUpdates = r.tunnelUpdates)
    (hReplaced : r'.replacedTunnel = r.replacedTunnel) : Coherent r' := by
  unfold Coherent
  rw [hGate]
  exact ⟨by simpa only [Bound, Registers, hTunnels, hSessions] using h.bound,
    hSessions ▸ h.unbound, hSessionUpdates ▸ hSessions ▸ h.sessionIds,
    hTunnelUpdates ▸ hTunnels ▸ h.tunnelBindings, hReplaced ▸ h.notReplaced⟩

theorem Coherent.at {gate : Option Section} (h : Coherent r) (hGate : r.gate = gate) :
    r.CoherentAt gate :=
  hGate ▸ h

/-! ## The writes to the two maps -/

variable {session : AgentSession}

/-- A new session is in the session map only. -/
theorem Bound.insertSession (h : r.Bound []) (hNew : session.sessionId ∉ r.sessions)
    (hSessions : r'.sessions = r.sessions.insert session.sessionId
      ⟨session.sessionId, session.authorization⟩) (hTunnels : r'.tunnels = r.tunnels) :
    r'.Bound [session.sessionId] := by
  intro tunnelId id
  rw [hTunnels, h tunnelId id, Registers, Registers, hSessions, ExtTreeMap.getElem?_insert]
  by_cases hId : session.sessionId = id
  · subst hId
    have hNone : r.sessions[session.sessionId]? = none := ExtTreeMap.getElem?_eq_none hNew
    simp [hNone]
  · simp [hId, Ne.symm hId]

/-- Its tunnel follows, and replaces nothing. -/
theorem Bound.insertTunnel (h : r.Bound [session.sessionId]) (hOwned : Owned r)
    (hLive : r.sessions[session.sessionId]? = some ⟨session.sessionId, session.authorization⟩)
    (hTunnel : session.authorization.tunnelId = session.tunnelId) :
    r.tunnels[session.tunnelId]? = none ∧ ∀ r' : Registry, r'.sessions = r.sessions →
        r'.tunnels = r.tunnels.insert session.tunnelId session.sessionId → r'.Bound [] := by
  -- another session with that tunnel would be the same session
  have hOnly : ∀ id, r.Registers id session.tunnelId → id = session.sessionId := by
    rintro _ ⟨_, hAt, hEq⟩
    exact hOwned.tunnel_inj hAt hLive (hEq.trans hTunnel.symm)
  have hNone : r.tunnels[session.tunnelId]? = none := by
    cases hAt : r.tunnels[session.tunnelId]? with
    | none => rfl
    | some id =>
      obtain ⟨hNe, hRegisters⟩ := (h _ _).mp hAt
      exact absurd (mem_singleton.mpr (hOnly id hRegisters)) hNe
  refine ⟨hNone, fun r' hSessions hTunnels tunnelId id => ?_⟩
  have hRegisters : r'.Registers id tunnelId ↔ r.Registers id tunnelId := by
    rw [Registers, Registers, hSessions]
  rw [hTunnels, ExtTreeMap.getElem?_insert, hRegisters]
  simp only [Std.compare_eq_iff_eq, not_mem_nil, not_false_eq_true, true_and]
  split_ifs with hId
  · subst hId
    constructor
    · rintro ⟨⟩
      exact ⟨_, hLive, hTunnel⟩
    · intro hReg
      rw [hOnly id hReg]
  · rw [h tunnelId id, mem_singleton]
    refine ⟨And.right, fun hReg => ⟨?_, hReg⟩⟩
    rintro rfl
    obtain ⟨_, hAt, hEq⟩ := hReg
    cases hLive.symm.trans hAt
    exact hId (hTunnel.symm.trans hEq)

/-- The tunnel of a session leaves the tunnel map, if it is there. -/
theorem Bound.removeTunnel (h : r.Bound [])
    (hTunnel : ∀ live, r.sessions[session.sessionId]? = some live →
      live.authorization.tunnelId = session.tunnelId)
    (hSessions : r'.sessions = r.sessions)
    (hTunnels : r'.tunnels = if r.tunnels[session.tunnelId]? = some session.sessionId
      then r.tunnels.erase session.tunnelId else r.tunnels) :
    r'.Bound [session.sessionId] := by
  intro tunnelId id
  have hRegisters : r'.Registers id tunnelId ↔ r.Registers id tunnelId := by
    rw [Registers, Registers, hSessions]
  rw [hRegisters, hTunnels, mem_singleton]
  have hOld := h tunnelId id
  simp only [not_mem_nil, not_false_eq_true, true_and] at hOld
  by_cases hId : id = session.sessionId
  · -- the session itself: its only binding is gone
    subst hId
    simp only [not_true_eq_false, false_and, iff_false]
    intro hAt
    have hAt' : r.tunnels[tunnelId]? = some session.sessionId := by
      split at hAt
      · rw [ExtTreeMap.getElem?_erase] at hAt
        split at hAt
        · cases hAt
        · exact hAt
      · exact hAt
    obtain ⟨live, hLive, rfl⟩ := hOld.mp hAt'
    rw [hTunnel live hLive] at hAt hAt'
    simp [hAt'] at hAt
  · simp only [hId, not_false_eq_true, true_and]
    rw [← hOld]
    split
    · rename_i hMine
      rw [ExtTreeMap.getElem?_erase]
      split
      · rename_i hEq
        rw [← Std.compare_eq_iff_eq.mp hEq, hMine]
        simp [Ne.symm hId]
      · rfl
    · rfl

/-- The tunnels of revoked sessions leave the tunnel map. -/
theorem Bound.retainTunnels {revoked : List TransportSessionId} (h : r.Bound [])
    (hSessions : r'.sessions = r.sessions)
    (hTunnels : r'.tunnels = r.tunnels.filter fun _ id => id ∉ revoked) :
    r'.Bound revoked := by
  intro tunnelId id
  have hRegisters : r'.Registers id tunnelId ↔ r.Registers id tunnelId := by
    rw [Registers, Registers, hSessions]
  rw [hRegisters, hTunnels, ExtTreeMap.getElem?_filter', filter_eq_some_iff, h tunnelId id]
  simp [and_comm]

/-- Hidden sessions leave the session map, which closes the gap. -/
theorem Bound.removeSessions {hidden : List TransportSessionId} (h : r.Bound hidden)
    (hSessions : ∀ (id : TransportSessionId) live, r'.sessions[id]? = some live ↔
      id ∉ hidden ∧ r.sessions[id]? = some live)
    (hTunnels : r'.tunnels = r.tunnels) : r'.Bound [] := by
  intro tunnelId id
  rw [hTunnels, h tunnelId id]
  simp only [Registers, hSessions, not_mem_nil, not_false_eq_true, true_and, and_assoc,
    exists_and_left]

/-! ## Steps and runs -/

/-- **Whatever the holder of the gate does keeps the maps and lists coherent.** -/
theorem Coherent.runSection (h : Coherent r) (hSound : Sound r) (hGate : r.gate = some stage) :
    Coherent (r.runSection stage) := by
  have hAt := h.at hGate
  have hSession : ∀ {k p s}, stage.holder = some (k, p) → p.session = some s →
      r.part Phase.session k = some s :=
    fun hHolder hp => (part_at (hSound.held stage _ _ hGate hHolder)).trans hp
  cases stage with
  | reauthorize | collectRevoked | resolve =>
    simp only [runSection]
    split <;> exact { hAt with unbound := by rintro _ ⟨⟩ }
  | sendBound | sendRemoved | setStatus | sendUnbound | sendRetained | sendKept =>
    exact { hAt with unbound := by rintro _ ⟨⟩ }
  | insertSession k session =>
    -- the session enters the map before its tunnel is bound
    have hNew := hSound.owned.pending k session (part_at (hSound.held _ k _ hGate rfl))
    refine ⟨?_, ?_, rfl, hAt.tunnelBindings, hAt.notReplaced⟩
    · exact Bound.insertSession hAt.bound hNew.1 rfl rfl
    · rintro _ ⟨⟩
      simp [runSection]
  | sendInserted => exact { hAt with unbound := fun _ => hAt.unbound _ }
  | insertTunnel _ session =>
    have hLive := hAt.unbound session rfl
    have hTunnel := hSound.owned.tunnel_eq (hSession rfl rfl) hLive
    obtain ⟨hNone, hBound⟩ := Bound.insertTunnel hAt.bound hSound.owned hLive hTunnel
    refine ⟨hBound _ rfl rfl, by rintro _ ⟨⟩, hAt.sessionIds, rfl, ?_⟩
    -- the assertion that nothing was replaced
    simp [runSection, hAt.notReplaced, ExtTreeMap.contains_eq_isSome_getElem?, hNone]
  | removeTunnel =>
    refine ⟨?_, by rintro _ ⟨⟩, hAt.sessionIds, rfl, hAt.notReplaced⟩
    exact Bound.removeTunnel hAt.bound
      (fun live hLive => hSound.owned.tunnel_eq (hSession rfl rfl) hLive) rfl rfl
  | removeSession _ session =>
    refine ⟨?_, by rintro _ ⟨⟩, rfl, hAt.tunnelBindings, hAt.notReplaced⟩
    have hBound : r.Bound [session.sessionId] := hAt.bound
    refine hBound.removeSessions (fun id live => ?_) rfl
    simp only [runSection, ExtTreeMap.getElem?_erase, mem_singleton, Std.compare_eq_iff_eq]
    by_cases hId : session.sessionId = id
    · simp [hId]
    · simp [hId, Ne.symm hId]
  | retainTunnels =>
    exact ⟨Bound.retainTunnels hAt.bound rfl rfl, by rintro _ ⟨⟩,
      hAt.sessionIds, rfl, hAt.notReplaced⟩
  | removeRevoked =>
    refine ⟨?_, by rintro _ ⟨⟩, rfl, hAt.tunnelBindings, hAt.notReplaced⟩
    refine Bound.removeSessions hAt.bound (fun id live => ?_) rfl
    simp [runSection, filter_eq_some_iff, Section.hidden, and_comm]
  | enqueue id =>
    obtain ⟨_, _, hNext, -⟩ := r.runSection_enqueue id
    rw [hNext]
    exact { hAt with unbound := by rintro _ ⟨⟩ }

theorem Coherent.effect (h : Coherent r) (hSound : Sound r) (hEffect : Effect r r') :
    Coherent r' := by
  cases hEffect with
  | same => exact h
  | accept | move | claim | allocate | release | publish | read =>
    exact { h with }
  | lock _ hFree hEnters =>
    have hAt := h.at hFree
    cases hEnters <;> exact { hAt with unbound := by rintro _ ⟨⟩ }
  | holder _ hGate => exact h.runSection hSound hGate

theorem coherent_step {a : Action} (h : Sound r ∧ Coherent r) (hStep : r.step a = some r') :
    Sound r' ∧ Coherent r' := by
  obtain ⟨_, hEffect, hSame⟩ := step_effect hStep
  refine ⟨(h.1.effect hEffect).same hSame, ?_⟩
  exact (h.2.effect h.1 hEffect).congr hSame.sessions hSame.tunnels hSame.gate
    hSame.sessionUpdates hSame.tunnelUpdates hSame.replacedTunnel

theorem coherent_run {config : RegistryConfig} {mode : EdgeRegistrationMode}
    {health : SnapshotSourceHealth} {unseen : Bool} {as : List Action}
    (hRun : exec step (bind config mode health unseen) as = some r) :
    Sound r ∧ Coherent r := by
  refine exec_induction (fun _ _ _ h hStep => coherent_step h hStep)
    ⟨sound_bind config mode health unseen, ?_⟩ hRun
  constructor
  · simp [Bound, Registers, bind]
  · rintro _ ⟨⟩
  · simp [bind, sortedSessionIds]
  · simp [bind, sortedTunnelBindings]
  · rfl

end Registry

/-! ## Coherence at every free point -/

open Registry in
/-- **The registry is coherent whenever the gate is free.** Over every interleaving of
handshakes, publications, reconciliations, removals and router calls: the tunnel map is
the set of the tunnels of the registered sessions, which are all different, the watch
lists are the sorted session ids and the bindings sorted by tunnel, and inserting a
tunnel never replaced one. -/
theorem registry_coherent {config : RegistryConfig} {mode : EdgeRegistrationMode}
    {health : SnapshotSourceHealth} {unseen : Bool} {as : List Action} {r : Registry}
    (hRun : exec step (bind config mode health unseen) as = some r) :
    r.replacedTunnel = false ∧
    (∀ (id id' : TransportSessionId) live live', r.sessions[id]? = some live →
      r.sessions[id']? = some live' →
      live.authorization.tunnelId = live'.authorization.tunnelId → id = id') ∧
    (r.gate = none →
      (∀ (tunnelId : TunnelId) (id : TransportSessionId), r.tunnels[tunnelId]? = some id ↔
        ∃ live, r.sessions[id]? = some live ∧ live.authorization.tunnelId = tunnelId) ∧
      (r.sessionUpdates.Pairwise (· < ·) ∧ ∀ id, id ∈ r.sessionUpdates ↔ id ∈ r.sessions) ∧
      r.tunnelUpdates.Pairwise (compare ·.1 ·.1 = .lt) ∧
        ∀ tunnelId id, (tunnelId, id) ∈ r.tunnelUpdates ↔ r.tunnels[tunnelId]? = some id) := by
  obtain ⟨hSound, hCoherent⟩ := coherent_run hRun
  refine ⟨hCoherent.notReplaced, fun _ _ _ _ => hSound.owned.tunnel_inj, fun hFree => ?_⟩
  have hAt := hCoherent.at hFree
  have hSessionIds : r.sessionUpdates = _ := hAt.sessionIds
  have hTunnelBindings : r.tunnelUpdates = _ := hAt.tunnelBindings
  refine ⟨?_, ⟨?_, ?_⟩, ?_, ?_⟩
  · intro tunnelId id
    simpa [Registers] using hAt.bound tunnelId id
  · rw [hSessionIds]
    exact r.sessions.ordered_keys.imp Nat.compare_eq_lt.mp
  · intro _
    rw [hSessionIds]
    exact ExtTreeMap.mem_keys
  · rw [hTunnelBindings]
    exact r.tunnels.ordered_keys_toList
  · intro _ _
    rw [hTunnelBindings]
    exact ExtTreeMap.mem_toList_iff_getElem?_eq_some

namespace RegistryExample

def agentId : AgentId := ⟨[97], DurableId.valid_a⟩

def tunnelId (byte : UInt8) (h : validateDurableId [byte] = .ok ()) : TunnelId := ⟨[byte], h⟩

def web : TunnelId := tunnelId 119 DurableId.valid_w

def ssh : TunnelId := tunnelId 115 (by decide)

/-- One certificate for each tunnel. -/
def certificate (tunnel : TunnelId) : CertificateFingerprint :=
  ⟨List.replicate 32 (tunnel.text.headD 0), by simp⟩

/-- The snapshot that grants the tunnels. -/
def snapshot (version : SnapshotVersion) (tunnels : List TunnelId) :
    VersionedAuthorizationSnapshot :=
  let grants := tunnels.map fun tunnel => ⟨certificate tunnel, agentId, [⟨tunnel, .enabled⟩]⟩
  match AuthorizationSnapshot.new grants with
  | .ok snapshot => ⟨version, snapshot⟩
  | .error _ => ⟨version, ⟨∅⟩⟩

def first : VersionedAuthorizationSnapshot := snapshot .first [ssh, web]

/-- The grant of `web` is gone. -/
def second : VersionedAuthorizationSnapshot := snapshot ⟨2, by decide, by decide⟩ [ssh]

def initial : Registry := .bind ⟨3, 1⟩ (.mutualTls first true) .live false

def holder (n : Nat) : List Registry.Action := List.replicate n .holder

/-- Connection `k` asks for a tunnel and, if it gets the claim, is published. -/
def handshake (k : Nat) (tunnel : TunnelId) : List Registry.Action :=
  [.accept (some (certificate tunnel)), .register k ⟨agentId, tunnel⟩, .claim k]

def publication (k : Nat) : List Registry.Action :=
  [.allocate k, .registered k, .lock k] ++ holder 5

/-- Two sessions are published, a second claim on `web` is refused, a stream is opened. -/
def connected : List (List Registry.Action) :=
  [handshake 0 web, publication 0, handshake 1 ssh, handshake 2 web, publication 1,
    [.openTunnel web], holder 2]

/-- The second snapshot revokes the first session, which then ends. -/
def revocation : List (List Registry.Action) :=
  [[.publish second, .snapshotChanged, .readSnapshot, .lockReconcile], holder 6,
    [.receive 0, .notifyRevoked, .notifyRevoked, .receive 0, .lock 0], holder 4, [.release 0]]

def run : List Registry.Action := (connected ++ revocation).flatten

end RegistryExample

open RegistryExample in
/-- After a revocation the registry holds the other session only. -/
theorem registry_coherent_revoked :
    ∃ r, exec Registry.step initial run = some r ∧ r.gate = none ∧
      r.replacedTunnel = false ∧ (∀ id, id ∈ [2] ↔ id ∈ r.sessions) ∧
      r.tunnels[ssh]? = some 2 := by
  obtain ⟨r, hr, hFree, hIds, hBindings⟩ : ∃ r, exec Registry.step initial run = some r ∧
      r.gate = none ∧ r.sessionUpdates = [2] ∧ r.tunnelUpdates = [(ssh, 2)] := by decide +kernel
  obtain ⟨hReplaced, -, hCoherent⟩ := registry_coherent hr
  obtain ⟨-, ⟨-, hMem⟩, -, hBound⟩ := hCoherent hFree
  rw [hIds] at hMem
  exact ⟨r, hr, hFree, hReplaced, hMem, (hBound ssh 2).mp (by simp [hBindings])⟩

end TunnelProxy.Edge
