import TunnelProxy.Edge.Coherence

/-!
# Revocation safety of the registry

With mutual TLS a session is authorized three times, against whatever snapshot is
current then: in the handshake, under the gate before it is registered, and by every
reconciliation. The invariant `Covered` says that each registered principal is
authorized by a published snapshot that is not older than the last one reconciled. It
survives a publication because nothing is taken back from the list of published
snapshots, and a reconciliation because what is left then is authorized by the very
snapshot whose version the reconciliation announces.

* `Reconciled` — the invariant
* `Reconciled.effect` — one step keeps it
* `Logged` — no open is enqueued after the removal
* `revocation_safe` — both, in every state of every run
-/

namespace TunnelProxy.Edge

open Std Common Control Transition List

namespace Section

/-- The update a reconciliation works with. -/
def update : Section → Option SnapshotUpdate
  | .collectRevoked update | .retainTunnels update _ | .sendRetained update _ _
  | .removeRevoked update _ | .sendKept update _ _ _ | .setStatus update _ _ => some update
  | _ => none

/-- The session that passed the second authorization. -/
def passed : Section → Option AgentSession
  | .insertSession _ session => some session
  | _ => none

/-- The sessions that a reconciliation has found and not removed yet, once it has looked. -/
def unremoved : Section → Option (List TransportSessionId)
  | .retainTunnels _ revoked | .sendRetained _ revoked _ | .removeRevoked _ revoked =>
    some revoked
  | .sendKept _ _ _ _ | .setStatus _ _ _ => some []
  | _ => none

end Section

variable {current : VersionedAuthorizationSnapshot} {id : TransportSessionId} {live : LiveSession}

namespace Registry

variable {r r' : Registry} {stage : Section}

/-- A published snapshot that is not older than the last one reconciled. -/
def Reaches (r : Registry) (snapshot : VersionedAuthorizationSnapshot) : Prop :=
  snapshot ∈ r.published ∧
    ∀ version, r.authorizationUpdates.version = some version → version ≤ snapshot.version

def Covered (r : Registry) (principal : AuthorizedRegistration) : Prop :=
  ∃ snapshot, r.Reaches snapshot ∧ principalIsAuthorized snapshot principal

/-- The invariant while the operation at the gate is `gate`. -/
structure ReconciledAt (r : Registry) (gate : Option Section) : Prop where
  /-- The current snapshot is the newest one. -/
  current : ∃ current, r.mode.current = some current ∧ r.Reaches current ∧
    ∀ snapshot ∈ r.published, snapshot.version ≤ current.version
  /-- A version stands for one snapshot. -/
  versions : ∀ a ∈ r.published, ∀ b ∈ r.published, a.version = b.version → a = b
  runtime : ∀ update, r.runtime = .reconciling update → r.Reaches update.snapshot
  update : ∀ update, gate.bind Section.update = some update → r.Reaches update.snapshot
  sessions : ∀ (id : TransportSessionId) live, r.sessions[id]? = some live →
    r.Covered live.authorization
  passed : ∀ session, gate.bind Section.passed = some session → r.Covered session.authorization
  kept : ∀ update revoked, gate.bind Section.update = some update →
    gate.bind Section.unremoved = some revoked → ∀ (id : TransportSessionId) live,
    r.sessions[id]? = some live → id ∉ revoked →
    principalIsAuthorized update.snapshot live.authorization

abbrev Reconciled (r : Registry) : Prop := r.ReconciledAt r.gate

theorem reconciled_bind (config : RegistryConfig) (current : VersionedAuthorizationSnapshot)
    (liveUpdates : Bool) (health : SnapshotSourceHealth) (unseen : Bool) :
    Reconciled (bind config (.mutualTls current liveUpdates) health unseen) where
  current := by
    refine ⟨current, rfl, ⟨mem_singleton_self current, ?_⟩, ?_⟩
    · rintro _ ⟨⟩
      exact le_rfl
    · intro _ hMem
      rw [mem_singleton.mp hMem]
  versions a ha b hb _ := (mem_singleton.mp ha).trans (mem_singleton.mp hb).symm
  runtime := by rintro _ ⟨⟩
  update := by rintro _ ⟨⟩
  sessions id live hLive := by simp [bind] at hLive
  passed := by rintro _ ⟨⟩
  kept := by rintro _ _ ⟨⟩

section

variable (h : Reconciled r)
include h

/-- The invariant looks at six fields; the runtime loop may only give up its update. -/
theorem Reconciled.congr (hMode : r'.mode = r.mode) (hPublished : r'.published = r.published)
    (hVersion : r'.authorizationUpdates.version = r.authorizationUpdates.version)
    (hRuntime : ∀ update, r'.runtime = .reconciling update → r.runtime = .reconciling update)
    (hGate : r'.gate = r.gate) (hSessions : r'.sessions = r.sessions) : Reconciled r' := by
  have hReaches : r'.Reaches = r.Reaches := by
    funext snapshot
    rw [Reaches, Reaches, hPublished, hVersion]
  have hCovered : r'.Covered = r.Covered := by
    funext principal
    rw [Covered, Covered, hReaches]
  rw [Reconciled, hGate]
  constructor
  · rw [hMode, hPublished, hReaches]
    exact h.current
  · exact hPublished ▸ h.versions
  · rw [hReaches]
    exact fun update hu => h.runtime update (hRuntime update hu)
  · exact hReaches ▸ h.update
  · rw [hCovered, hSessions]
    exact h.sessions
  · exact hCovered ▸ h.passed
  · exact hSessions ▸ h.kept

theorem Reconciled.at {gate : Option Section} (hGate : r.gate = gate) : r.ReconciledAt gate :=
  hGate ▸ h

/-! ## The steps that carry the argument -/

/-- A newer snapshot is published: what reached the last reconciliation still does. -/
theorem Reconciled.publish {next : VersionedAuthorizationSnapshot}
    {liveUpdates : Bool} (hMode : r.mode = .mutualTls current liveUpdates)
    (hNewer : current.version < next.version) :
    Reconciled { r with
      mode := .mutualTls next liveUpdates
      published := r.published ++ [next] } := by
  obtain ⟨current', hCurrent, hReach, hNewest⟩ := h.current
  obtain rfl : current = current' := by
    rw [hMode] at hCurrent
    exact Option.some.inj hCurrent
  have hOlder : ∀ snapshot ∈ r.published, snapshot.version < next.version :=
    fun snapshot hMem => (hNewest snapshot hMem).trans_lt hNewer
  have hReaches : ∀ snapshot, r.Reaches snapshot →
      Reaches { r with
        mode := .mutualTls next liveUpdates
        published := r.published ++ [next] } snapshot :=
    fun snapshot hs => ⟨mem_append_left _ hs.1, hs.2⟩
  constructor
  · refine ⟨next, rfl, ⟨by simp, ?_⟩, ?_⟩
    · exact fun version hv => ((hReach.2 version hv).trans_lt hNewer).le
    · intro snapshot hMem
      rcases mem_append.mp hMem with hOld | hNew
      · exact (hOlder snapshot hOld).le
      · rw [mem_singleton.mp hNew]
  · intro a ha b hb hEq
    rcases mem_append.mp ha with ha | ha <;> rcases mem_append.mp hb with hb | hb
    · exact h.versions a ha b hb hEq
    · rw [mem_singleton.mp hb] at hEq
      exact absurd hEq (hOlder a ha).ne
    · rw [mem_singleton.mp ha] at hEq
      exact absurd hEq.symm (hOlder b hb).ne
    · rw [mem_singleton.mp ha, mem_singleton.mp hb]
  · exact fun update hu => hReaches _ (h.runtime update hu)
  · exact fun update hu => hReaches _ (h.update update hu)
  · intro id live hLive
    obtain ⟨snapshot, hs, hAuthorized⟩ := h.sessions id live hLive
    exact ⟨snapshot, hReaches snapshot hs, hAuthorized⟩
  · intro session hSession
    obtain ⟨snapshot, hs, hAuthorized⟩ := h.passed session hSession
    exact ⟨snapshot, hReaches snapshot hs, hAuthorized⟩
  · exact h.kept

/-- The session that passed the second check is registered. -/
theorem Reconciled.insertSession {k : Nat} {session : AgentSession}
    (hGate : r.gate = some (.insertSession k session)) :
    Reconciled (r.runSection (.insertSession k session)) := by
  refine { h with
    update := by rintro _ ⟨⟩, sessions := ?_, passed := by rintro _ ⟨⟩, kept := by rintro _ _ ⟨⟩ }
  intro id live hLive
  simp only [runSection, ExtTreeMap.getElem?_insert] at hLive
  split at hLive
  · cases hLive
    exact (h.at hGate).passed session rfl
  · exact h.sessions id live hLive

/-- A reconciliation announces its version once every session left is authorized by it. -/
theorem Reconciled.setStatus {update : SnapshotUpdate}
    {revoked senders : List TransportSessionId}
    (hGate : r.gate = some (.setStatus update revoked senders)) :
    Reconciled (r.runSection (.setStatus update revoked senders)) := by
  obtain ⟨current, hCurrent, hReach, hNewest⟩ := h.current
  have hPublished : update.snapshot ∈ r.published := ((h.at hGate).update update rfl).1
  have hUpdate : (r.runSection (.setStatus update revoked senders)).Reaches update.snapshot := by
    refine ⟨hPublished, ?_⟩
    rintro _ ⟨⟩
    exact le_rfl
  constructor
  · refine ⟨current, hCurrent, ⟨hReach.1, ?_⟩, hNewest⟩
    rintro _ ⟨⟩
    exact hNewest _ hPublished
  · exact h.versions
  · rintro _ ⟨⟩
  · rintro _ ⟨⟩
  · intro id live hLive
    exact ⟨update.snapshot, hUpdate,
      (h.at hGate).kept update [] rfl rfl id live hLive not_mem_nil⟩
  · rintro _ ⟨⟩
  · rintro _ _ ⟨⟩

omit h in
/-- The ids collected are those of the sessions the snapshot does not authorize. -/
theorem authorized_of_not_mem_revokedIds {snapshot : VersionedAuthorizationSnapshot}
    (hLive : r.sessions[id]? = some live)
    (hKept : id ∉ revokedIds r.sessions snapshot) :
    principalIsAuthorized snapshot live.authorization := by
  by_contra hUnauthorized
  refine hKept (mem_map.mpr ⟨(id, live), mem_filter.mpr ⟨?_, ?_⟩, rfl⟩)
  · exact ExtTreeMap.mem_toList_iff_getElem?_eq_some.mpr hLive
  · simpa using hUnauthorized

theorem Reconciled.runSection (hGate : r.gate = some stage) :
    Reconciled (r.runSection stage) := by
  have hAt := h.at hGate
  cases stage with
  | reauthorize k session =>
    simp only [Registry.runSection]
    split
    · rename_i hOk
      refine { h with update := by rintro _ ⟨⟩, passed := ?_, kept := by rintro _ _ ⟨⟩ }
      -- passing the second check is being authorized by the current snapshot
      rintro _ ⟨⟩
      obtain ⟨current, hCurrent, hReach, -⟩ := h.current
      exact ⟨current, hReach, EdgeRegistrationMode.reauthorize_mutualTls hCurrent hOk⟩
    · exact { h with update := by rintro _ ⟨⟩, passed := by rintro _ ⟨⟩, kept := by rintro _ _ ⟨⟩ }
  | insertSession => exact h.insertSession hGate
  | sendInserted | insertTunnel | sendBound | removeTunnel | sendUnbound | sendRemoved =>
    exact { h with update := by rintro _ ⟨⟩, passed := by rintro _ ⟨⟩, kept := by rintro _ _ ⟨⟩ }
  | removeSession =>
    refine { h with
      update := by rintro _ ⟨⟩, sessions := ?_, passed := by rintro _ ⟨⟩, kept := by rintro _ _ ⟨⟩ }
    intro id live hLive
    simp only [Registry.runSection, ExtTreeMap.getElem?_erase] at hLive
    split at hLive
    · cases hLive
    · exact h.sessions id live hLive
  | collectRevoked update =>
    simp only [Registry.runSection]
    split
    · rename_i hEmpty
      refine { hAt with passed := by rintro _ ⟨⟩, kept := ?_ }
      rintro _ _ ⟨⟩ ⟨⟩ _ _ hLive -
      refine authorized_of_not_mem_revokedIds hLive ?_
      rw [isEmpty_iff.mp hEmpty]
      exact not_mem_nil
    · refine { hAt with passed := by rintro _ ⟨⟩, kept := ?_ }
      rintro _ _ ⟨⟩ ⟨⟩ _ _ hLive hKept
      exact authorized_of_not_mem_revokedIds hLive hKept
  | retainTunnels | sendRetained | sendKept => exact { hAt with }
  | removeRevoked update revoked =>
    have hLookup : ∀ (id : TransportSessionId) live,
        (r.runSection (.removeRevoked update revoked)).sessions[id]? = some live →
        r.sessions[id]? = some live ∧ id ∉ revoked := by
      intro _ _ hLive
      simpa [Registry.runSection, Option.filter_eq_some_iff] using hLive
    refine { hAt with
      sessions := fun id live hLive => hAt.sessions id live (hLookup id live hLive).1,
                      kept := ?_ }
    rintro _ _ ⟨⟩ ⟨⟩ id live hLive -
    obtain ⟨hOld, hKept⟩ := hLookup id live hLive
    exact hAt.kept update revoked rfl rfl id live hOld hKept
  | setStatus => exact h.setStatus hGate
  | resolve =>
    simp only [Registry.runSection]
    split <;> exact
      { h with update := by rintro _ ⟨⟩, passed := by rintro _ ⟨⟩, kept := by rintro _ _ ⟨⟩ }
  | enqueue id =>
    obtain ⟨_, _, hNext, -⟩ := r.runSection_enqueue id
    rw [hNext]
    exact { h with update := by rintro _ ⟨⟩, passed := by rintro _ ⟨⟩, kept := by rintro _ _ ⟨⟩ }

theorem Reconciled.effect (hEffect : Effect r r') : Reconciled r' := by
  cases hEffect with
  | same => exact h
  | accept | move | claim | allocate | release => exact { h with }
  | publish _ _ _ hMode hNewer => exact h.publish hMode hNewer
  | read _ hCurrent =>
    obtain ⟨current, hCurrent', hReach, -⟩ := h.current
    obtain rfl := Option.some.inj (hCurrent.symm.trans hCurrent')
    refine { h with runtime := ?_ }
    rintro _ ⟨⟩
    exact hReach
  | lock _ _ hEnters =>
    cases hEnters with
    | reconcile update hRuntime =>
      refine { h with update := ?_, passed := by rintro _ ⟨⟩, kept := by rintro _ _ ⟨⟩ ⟨⟩ }
      rintro _ ⟨⟩
      exact h.runtime update hRuntime
    | publish | remove | resolve | enqueue =>
      exact { h with update := by rintro _ ⟨⟩, passed := by rintro _ ⟨⟩, kept := by rintro _ _ ⟨⟩ }
  | holder _ hGate => exact h.runSection hGate

/-- The version that the reconciliations announce does not fall. -/
theorem Reconciled.version_mono (hEffect : Effect r r')
    {version : SnapshotVersion} (hVersion : r.authorizationUpdates.version = some version) :
    ∃ version', r'.authorizationUpdates.version = some version' ∧ version ≤ version' := by
  have hSame : r'.authorizationUpdates.version = r.authorizationUpdates.version →
      ∃ version', r'.authorizationUpdates.version = some version' ∧ version ≤ version' :=
    fun hEq => ⟨version, hEq.trans hVersion, le_rfl⟩
  cases hEffect with
  | holder stage hGate =>
    cases stage with
    | setStatus update =>
      exact ⟨_, rfl, ((h.at hGate).update update rfl).2 version hVersion⟩
    | reauthorize | collectRevoked | resolve =>
      refine hSame ?_
      simp only [Registry.runSection]
      split <;> rfl
    | enqueue id =>
      obtain ⟨_, _, hNext, -⟩ := r.runSection_enqueue id
      exact hSame (by rw [hNext])
    | _ => exact hSame rfl
  | _ => exact hSame rfl

end

/-! ## Opens and removals -/

/-- No open is enqueued to a session after its removal. -/
def Logged (r : Registry) : Prop :=
  r.log.Pairwise fun earlier later => ∀ id, earlier = .removed id → later ≠ .opened id

theorem Logged.append {log events : List RegistryEvent}
    (h : log.Pairwise fun earlier later => ∀ id, earlier = .removed id → later ≠ .opened id)
    (hEvents : ∀ id, .opened id ∉ events) :
    (log ++ events).Pairwise fun earlier later =>
      ∀ id, earlier = .removed id → later ≠ .opened id := by
  refine pairwise_append.mpr ⟨h, ?_, ?_⟩
  · refine pairwise_of_forall_mem_list fun a _ b hb id _ hEq => ?_
    exact hEvents id (hEq ▸ hb)
  · intro _ _ _ hb id _ hEq
    exact hEvents id (hEq ▸ hb)

theorem Logged.effect (h : Logged r) (hOwned : Owned r) (hEffect : Effect r r') : Logged r' := by
  cases hEffect with
  | holder stage hGate =>
    cases stage with
    | insertSession | removeRevoked => exact Logged.append h (by simp)
    | removeSession =>
      simp only [Logged, Registry.runSection]
      split
      · exact Logged.append h (by simp)
      · exact h
    | reauthorize | collectRevoked | resolve =>
      simp only [Registry.runSection]
      split <;> exact h
    | enqueue sessionId =>
      simp only [Registry.runSection]
      split
      · exact h
      · rename_i hOk
        obtain ⟨hMem, hEq⟩ := enqueueIo_same hOk
        rw [hEq]
        -- a removed session is out of the map, and this one is in it
        refine pairwise_append.mpr ⟨h, by simp, ?_⟩
        rintro _ ha _ hb _ rfl rfl
        cases mem_singleton.mp hb
        exact (hOwned.removed sessionId ha).2 hMem
    | _ => exact h
  | _ => exact h

end Registry

/-! ## Revocation safety -/

namespace Registry

/-- What every step of an Edge with mutual TLS keeps. -/
structure Safe (r : Registry) : Prop where
  sound : Sound r
  reconciled : Reconciled r
  logged : Logged r

variable {r r' : Registry} {version : SnapshotVersion}

theorem Safe.step {a : Action} (h : Safe r) (hStep : r.step a = some r') : Safe r' := by
  obtain ⟨_, hEffect, hSame⟩ := step_effect hStep
  refine ⟨(h.sound.effect hEffect).same hSame, ?_, ?_⟩
  · exact (h.reconciled.effect hEffect).congr hSame.mode hSame.published hSame.version
      hSame.runtime hSame.gate hSame.sessions
  · have hLogged := h.logged.effect h.sound.owned hEffect
    rwa [Logged, ← hSame.log] at hLogged

theorem Safe.version_mono {a : Action} (h : Safe r) (hStep : r.step a = some r')
    (hVersion : r.authorizationUpdates.version = some version) :
    ∃ version', r'.authorizationUpdates.version = some version' ∧ version ≤ version' := by
  obtain ⟨_, hEffect, hSame⟩ := step_effect hStep
  obtain ⟨version', hVersion', hLe⟩ := h.reconciled.version_mono hEffect hVersion
  exact ⟨version', hSame.version.trans hVersion', hLe⟩

/-- The step lemmas over a run. -/
theorem Safe.run {as : List Action} (h : Safe r)
    (hVersion : r.authorizationUpdates.version = some version)
    (hRun : exec Registry.step r as = some r') :
    Safe r' ∧ ∃ version', r'.authorizationUpdates.version = some version' ∧ version ≤ version' := by
  refine exec_induction (P := fun s => Safe s ∧ ∃ version',
    s.authorizationUpdates.version = some version' ∧ version ≤ version') ?_
    ⟨h, version, hVersion, le_rfl⟩ hRun
  rintro _ _ _ ⟨hs, _, hw, hLe⟩ hStep
  obtain ⟨w', hw', hLe'⟩ := hs.version_mono hStep hw
  exact ⟨hs.step hStep, w', hw', hLe.trans hLe'⟩

/-- Once a version is reconciled and as long as it is current, exactly its principals can
be registered. -/
theorem Safe.current_authorizes (h : Safe r)
    (hCurrent : r.mode.current = some current)
    (hVersion : r.authorizationUpdates.version = some current.version)
    (hLive : r.sessions[id]? = some live) :
    principalIsAuthorized current live.authorization := by
  obtain ⟨_, hCurrent', hReach, hNewest⟩ := h.reconciled.current
  obtain rfl := Option.some.inj (hCurrent.symm.trans hCurrent')
  obtain ⟨snapshot, ⟨hPublished, hLeast⟩, hAuthorized⟩ := h.reconciled.sessions id live hLive
  have hEq : snapshot.version = current.version :=
    (hNewest snapshot hPublished).antisymm (hLeast _ hVersion)
  rwa [h.reconciled.versions snapshot hPublished current hReach.1 hEq] at hAuthorized

end Registry

open Registry in
/-- **Revocation safety.** Over every interleaving on an Edge with mutual TLS, in every
state, with the gate free or not:

* each registered principal is authorized by a published snapshot that is at least as new
  as the last one reconciled;
* when a reconciliation drops the gate, every session left is authorized by its snapshot;
* from a state in which a version is reconciled on, and as long as that version is
  current, every registered session is authorized by it, so what it revoked does not come
  back;
* no open is enqueued to a session after its removal. -/
theorem revocation_safe {config : RegistryConfig} {initial : VersionedAuthorizationSnapshot}
    {liveUpdates : Bool} {health : SnapshotSourceHealth} {unseen : Bool}
    {as bs : List Action} {r r' : Registry}
    (hRun : exec step
      (bind config (.mutualTls initial liveUpdates) health unseen) as = some r)
    (hLater : exec step r bs = some r') :
    (∀ (id : TransportSessionId) live, r.sessions[id]? = some live → ∃ snapshot ∈ r.published,
        (∀ version, r.authorizationUpdates.version = some version → version ≤ snapshot.version) ∧
        principalIsAuthorized snapshot live.authorization) ∧
    (∀ update revoked senders r₁, r.gate = some (.setStatus update revoked senders) →
      r.step .holder = some r₁ →
      r₁.gate = none ∧ r₁.authorizationUpdates.version = some update.snapshot.version ∧
        ∀ (id : TransportSessionId) live, r₁.sessions[id]? = some live →
          principalIsAuthorized update.snapshot live.authorization) ∧
    (∀ version current, r.authorizationUpdates.version = some version →
      r'.mode.current = some current → current.version = version →
      ∀ (id : TransportSessionId) live, r'.sessions[id]? = some live →
        principalIsAuthorized current live.authorization) ∧
    ∀ before after id, r.log = before ++ .removed id :: after → .opened id ∉ after := by
  have hSafe : Safe r := exec_induction (fun _ _ _ h => h.step)
    ⟨sound_bind config _ health unseen, reconciled_bind config initial liveUpdates health unseen,
      Pairwise.nil⟩ hRun
  refine ⟨?_, ?_, ?_, ?_⟩
  · intro id live hLive
    obtain ⟨snapshot, ⟨hPublished, hLeast⟩, hAuthorized⟩ := hSafe.reconciled.sessions id live hLive
    exact ⟨snapshot, hPublished, hLeast, hAuthorized⟩
  · intro update _ _ _ hGate hStep
    simp only [step, hGate, Option.map_some, Option.some.injEq] at hStep
    subst hStep
    refine ⟨rfl, rfl, fun id live hLive => ?_⟩
    exact (hSafe.reconciled.at hGate).kept update [] rfl rfl id live hLive not_mem_nil
  · intro version current hVersion hCurrent hEq _ _ hLive
    -- the reconciled version can only have grown, and the current one bounds it
    obtain ⟨hSafe', version', hVersion', hLe⟩ := hSafe.run hVersion hLater
    obtain ⟨_, hCurrent', hReach, -⟩ := hSafe'.reconciled.current
    obtain rfl := Option.some.inj (hCurrent.symm.trans hCurrent')
    have hSame : version' = current.version :=
      (hReach.2 version' hVersion').antisymm (hEq ▸ hLe)
    exact hSafe'.current_authorizes hCurrent (hSame ▸ hVersion') hLive
  · intro _ _ id hLog hMem
    have hLogged := hSafe.logged
    rw [Logged, hLog] at hLogged
    obtain ⟨-, hAfter, -⟩ := pairwise_append.mp hLogged
    exact (pairwise_cons.mp hAfter).1 _ hMem id rfl rfl

namespace RegistryExample

/-- The revoked principal tries again. -/
def again : List Registry.Action :=
  [.accept (some (certificate web)), .register 3 ⟨agentId, web⟩]

/-- The revoked session was opened once and then removed, and the second snapshot stays
reconciled and current. -/
def settled (r : Registry) : Bool :=
  r.log = [.registered 1, .registered 2, .opened 1, .removed 1] &&
    r.authorizationUpdates.version = some second.version &&
    (exec Registry.step r again).any fun r' => r'.mode.current = some second

end RegistryExample

open RegistryExample in
/-- A revocation after which the revoked principal does not get back in. -/
theorem revocation_safe_again : ∃ r r', exec Registry.step initial run = some r ∧
      exec Registry.step r again = some r' ∧ settled r = true ∧
      ∀ (id : TransportSessionId) live, r'.sessions[id]? = some live →
        principalIsAuthorized second live.authorization := by
  obtain ⟨r, hr, hSettled⟩ : ∃ r, exec Registry.step initial run = some r ∧ settled r := by
    decide +kernel
  have hParts := hSettled
  simp only [settled, Bool.and_eq_true, Option.any_eq_true, decide_eq_true_eq] at hParts
  obtain ⟨⟨-, hVersion⟩, r', hr', hCurrent⟩ := hParts
  obtain ⟨-, -, hLater, -⟩ := revocation_safe hr hr'
  exact ⟨r, r', hr, hr', hSettled,
    hLater second.version second hVersion hCurrent rfl⟩

end TunnelProxy.Edge
