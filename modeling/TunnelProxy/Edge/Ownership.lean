import TunnelProxy.Edge.Registry

/-!
# Who owns a registered session

What one step of the registry can do is said once (`step_effect`). From it follows who
stands behind every entry of the session map: a connection that holds the claim on the
session's tunnel and, because an id is given out once, is the only one with that id.

* `Owned.owner`, `Owned.claimOnce`, `Owned.idOnce` — the parts of the invariant
* `Owned.tunnel_inj` — registered sessions have distinct tunnels
* `Sound` — the invariant together with the position of the connection that holds the gate
-/

namespace TunnelProxy.Edge

open Std Common Control List Registry Option

/-! ## What a step can do -/

/-- The moves of a connection that change nothing but its phase. -/
inductive Phase.Move (mode : EdgeRegistrationMode) : Phase → Phase → Prop
  | authorize (peerCertificate : Option CertificateFingerprint)
      (request : RegistrationRequest) (authorization : AuthorizedRegistration)
      (hOk : mode.authorize peerCertificate request = .ok authorization) :
      Move mode (.handshake peerCertificate) (.authorized request.tunnelId authorization)
  | reject (peerCertificate : Option CertificateFingerprint) :
      Move mode (.handshake peerCertificate) .finished
  | taken (tunnelId : TunnelId) (authorization : AuthorizedRegistration) :
      Move mode (.authorized tunnelId authorization) .finished
  | exhausted (tunnelId : TunnelId) (authorization : AuthorizedRegistration) :
      Move mode (.claimed tunnelId authorization) (.closing tunnelId)
  | registered (session : AgentSession) : Move mode (.registering session) (.publishing session)
  | fail (session : AgentSession) : Move mode (.registering session) (.closing session.tunnelId)
  | ends (session : AgentSession) : Move mode (.running session) (.removing session)

namespace Registry

/-- The sections a task may enter when the gate is free. -/
inductive Enters (r : Registry) : Section → Prop
  | publish (k : Nat) (session : AgentSession)
      (hAt : r.connections[k]? = some (.publishing session)) :
      Enters r (.reauthorize k session)
  | remove (k : Nat) (session : AgentSession)
      (hAt : r.connections[k]? = some (.removing session)) :
      Enters r (.removeTunnel k session)
  | reconcile (update : SnapshotUpdate) (hRuntime : r.runtime = .reconciling update) :
      Enters r (.collectRevoked update)
  | resolve (tunnelId : TunnelId) : Enters r (.resolve tunnelId)
  | enqueue (sessionId : TransportSessionId) : Enters r (.enqueue sessionId)

/-- The states agree on everything but the command channels, the health of the snapshot
source and how far the runtime loop is outside a reconciliation. -/
structure Same (r r' : Registry) : Prop where
  mode : r'.mode = r.mode
  runtime : ∀ update, r'.runtime = .reconciling update → r.runtime = .reconciling update
  connections : r'.connections = r.connections
  claims : r'.claims = r.claims
  counter : r'.counter = r.counter
  sessions : r'.sessions = r.sessions
  tunnels : r'.tunnels = r.tunnels
  gate : r'.gate = r.gate
  sessionUpdates : r'.sessionUpdates = r.sessionUpdates
  tunnelUpdates : r'.tunnelUpdates = r.tunnelUpdates
  version : r'.authorizationUpdates.version = r.authorizationUpdates.version
  replacedTunnel : r'.replacedTunnel = r.replacedTunnel
  published : r'.published = r.published
  log : r'.log = r.log

theorem Same.refl (r : Registry) : Same r r := by
  constructor <;> first | rfl | exact fun _ h => h

/-- One step, up to `Same`. -/
inductive Effect (r : Registry) : Registry → Prop
  | same : Effect r r
  | accept (peerCertificate : Option CertificateFingerprint) :
      Effect r { r with connections := r.connections ++ [.handshake peerCertificate] }
  | move (k : Nat) (p p' : Phase) (hAt : r.connections[k]? = some p)
      (hMove : Phase.Move r.mode p p') : Effect r (r.setPhase k p')
  | claim (k : Nat) (tunnelId : TunnelId) (authorization : AuthorizedRegistration)
      (hAt : r.connections[k]? = some (.authorized tunnelId authorization))
      (hFree : tunnelId ∉ r.claims) :
      Effect r { r.setPhase k (.claimed tunnelId authorization) with
        claims := tunnelId :: r.claims }
  | allocate (k : Nat) (tunnelId : TunnelId) (authorization : AuthorizedRegistration)
      (hAt : r.connections[k]? = some (.claimed tunnelId authorization)) :
      Effect r { r.setPhase k (.registering ⟨r.counter + 1, tunnelId, authorization⟩) with
        counter := r.counter + 1 }
  | release (k : Nat) (tunnelId : TunnelId)
      (hAt : r.connections[k]? = some (.closing tunnelId)) :
      Effect r { r.setPhase k .finished with claims := r.claims.filter (· ≠ tunnelId) }
  | publish (current next : VersionedAuthorizationSnapshot) (liveUpdates : Bool)
      (hMode : r.mode = .mutualTls current liveUpdates)
      (hNewer : current.version < next.version) :
      Effect r { r with
        mode := .mutualTls next liveUpdates
        published := r.published ++ [next] }
  | read (update : SnapshotUpdate) (hCurrent : r.mode.current = some update.snapshot) :
      Effect r { r with runtime := .reconciling update }
  | lock (stage : Section) (hFree : r.gate = none) (hEnters : r.Enters stage) :
      Effect r { r with gate := some stage }
  | holder (stage : Section) (hGate : r.gate = some stage) : Effect r (r.runSection stage)

variable {k : Nat} {r r' : Registry}

theorem register_effect {request : RegistrationRequest} (h : r.register k request = some r') :
    Effect r r' := by
  unfold register at h
  split at h
  · rename_i certificate hAt
    split at h <;> cases h
    · exact .move k _ _ hAt (.reject certificate)
    · rename_i authorization hOk
      exact .move k _ _ hAt (.authorize certificate request authorization hOk)
  · cases h

theorem claim_effect (h : r.claim k = some r') : Effect r r' := by
  unfold claim at h
  split at h
  · rename_i tunnelId authorization hAt
    split at h <;> cases h
    · exact .move k _ _ hAt (.taken tunnelId authorization)
    · rename_i hFree
      exact .claim k tunnelId authorization hAt hFree
  · cases h

theorem allocate_effect (h : r.allocate k = some r') : Effect r r' := by
  unfold allocate at h
  split at h
  · rename_i tunnelId authorization hAt
    unfold nextId at h
    split_ifs at h <;> cases h
    · exact .allocate k tunnelId authorization hAt
    · exact .move k _ _ hAt (.exhausted tunnelId authorization)
  · cases h

theorem publishSnapshot_effect {candidate : VersionedAuthorizationSnapshot}
    (h : r.publishSnapshot candidate = some r') : ∃ r₁, Effect r r₁ ∧ Same r₁ r' := by
  unfold publishSnapshot at h
  split at h
  · cases h
  · rename_i current liveUpdates hMode
    split at h
    · rename_i next hPublish
      cases h
      have hNewer := (publish_applied hPublish).2
      exact ⟨_, .publish current next liveUpdates hMode hNewer, by constructor <;> simp⟩
    · cases h
      exact ⟨r, .same, .refl r⟩

theorem notifyRevoked_same (h : r.notifyRevoked = some r') : Same r r' := by
  unfold notifyRevoked at h
  split at h
  · cases h
    constructor <;> simp
  · split at h
    · cases h
      constructor <;> simp
    · split at h <;> cases h <;> constructor <;> simp
  · cases h

/-- A task takes the gate. -/
def Takes (r r' : Registry) : Prop :=
  ∃ stage, r.gate = none ∧ r.Enters stage ∧ r' = { r with gate := some stage }

theorem takes_lock (h : r.lock k = some r') : r.Takes r' := by
  unfold lock at h
  split at h
  · rename_i session hFree hAt
    cases h
    exact ⟨_, hFree, .publish k session hAt, rfl⟩
  · rename_i session hFree hAt
    cases h
    exact ⟨_, hFree, .remove k session hAt, rfl⟩
  · cases h

theorem takes_lockReconcile (h : r.lockReconcile = some r') : r.Takes r' := by
  unfold lockReconcile at h
  split at h
  · rename_i update hFree hRuntime
    cases h
    exact ⟨_, hFree, .reconcile update hRuntime, rfl⟩
  · cases h

theorem takes_lockRouter {call : Section} (hEnters : r.Enters call)
    (h : r.lockRouter call = some r') : r.Takes r' := by
  unfold lockRouter at h
  split at h
  · rename_i hFree
    cases h
    exact ⟨call, hFree, hEnters, rfl⟩
  · cases h

theorem Takes.effect (h : r.Takes r') : ∃ r₁, Effect r r₁ ∧ Same r₁ r' := by
  obtain ⟨stage, hFree, hEnters, rfl⟩ := h
  exact ⟨_, .lock stage hFree hEnters, .refl _⟩

/-- **What one step does.** -/
theorem step_effect {a : Action} (h : r.step a = some r') : ∃ r₁, Effect r r₁ ∧ Same r₁ r' := by
  cases a with
  | accept peerCertificate =>
    simp only [step, accept] at h
    split at h
    · split at h <;> cases h
      · exact ⟨_, .accept peerCertificate, .refl _⟩
      · exact ⟨r, .same, .refl r⟩
    · cases h
  | register => exact ⟨r', register_effect h, .refl r'⟩
  | claim => exact ⟨r', claim_effect h, .refl r'⟩
  | allocate => exact ⟨r', allocate_effect h, .refl r'⟩
  | registered k =>
    simp only [step, registered] at h
    split at h
    · rename_i session hAt
      cases h
      exact ⟨_, .move k _ _ hAt (.registered session), by constructor <;> simp⟩
    · cases h
  | handshakeFails k =>
    simp only [step, handshakeFails] at h
    split at h
    · rename_i certificate hAt
      cases h
      exact ⟨_, .move k _ _ hAt (.reject certificate), .refl _⟩
    · rename_i session hAt
      cases h
      exact ⟨_, .move k _ _ hAt (.fail session), .refl _⟩
    · cases h
  | lock => exact (takes_lock h).effect
  | receive k =>
    simp only [step, receive] at h
    split at h
    · rename_i session hAt
      split at h
      · cases h
        exact ⟨_, .move k _ _ hAt (.ends session), by constructor <;> simp [endSession]⟩
      · cases h
        exact ⟨r, .same, by constructor <;> simp⟩
      · cases h
    · cases h
  | sessionEnds k =>
    simp only [step, sessionEnds] at h
    split at h
    · rename_i session hAt
      cases h
      exact ⟨_, .move k _ _ hAt (.ends session), by constructor <;> simp [endSession]⟩
    · cases h
  | release k =>
    simp only [step, release] at h
    split at h
    · rename_i tunnelId hAt
      cases h
      exact ⟨_, .release k tunnelId hAt, .refl _⟩
    · cases h
  | publish => exact publishSnapshot_effect h
  | setSourceHealth =>
    cases h
    exact ⟨r, .same, by constructor <;> simp [setSourceHealth]⟩
  | snapshotChanged =>
    simp only [step, snapshotChanged] at h
    split at h
    · split at h <;> cases h
      exact ⟨r, .same, by constructor <;> simp⟩
    · cases h
  | readSnapshot =>
    simp only [step, readSnapshot] at h
    split at h
    · rename_i hCurrent
      cases h
      exact ⟨_, .read _ hCurrent, .refl _⟩
    · cases h
  | sourceClosed =>
    simp only [step, sourceClosed] at h
    split at h
    · split at h <;> cases h
      exact ⟨r, .same, by constructor <;> simp⟩
    · cases h
  | lockReconcile => exact (takes_lockReconcile h).effect
  | notifyRevoked => exact ⟨r, .same, notifyRevoked_same h⟩
  | openTunnel tunnelId => exact (takes_lockRouter (.resolve tunnelId) h).effect
  | openStream sessionId => exact (takes_lockRouter (.enqueue sessionId) h).effect
  | stopAccepting =>
    cases h
    exact ⟨r, .same, by constructor <;> simp⟩
  | holder =>
    simp only [step, map_eq_some_iff] at h
    obtain ⟨stage, hGate, rfl⟩ := h
    exact ⟨_, .holder stage hGate, .refl _⟩

end Registry

/-! ## What a phase holds -/

namespace Phase

/-- The tunnel asked for and the principal it was granted to. -/
def principal : Phase → Option (TunnelId × AuthorizedRegistration)
  | .authorized tunnelId authorization | .claimed tunnelId authorization =>
    some (tunnelId, authorization)
  | .registering session | .publishing session | .inserted session | .running session
  | .removing session => some (session.tunnelId, session.authorization)
  | .handshake _ | .withdrawn _ | .closing _ | .finished => none

/-- The tunnel whose claim the connection holds. -/
def claim : Phase → Option TunnelId
  | .claimed tunnelId _ | .withdrawn tunnelId | .closing tunnelId => some tunnelId
  | .registering session | .publishing session | .inserted session | .running session
  | .removing session => some session.tunnelId
  | .handshake _ | .authorized _ _ | .finished => none

/-- The session that may be registered for the connection. -/
def session : Phase → Option AgentSession
  | .registering session | .publishing session | .inserted session | .running session
  | .removing session => some session
  | .handshake _ | .authorized _ _ | .claimed _ _ | .withdrawn _ | .closing _
  | .finished => none

/-- The session that is still to be registered. -/
def pending : Phase → Option AgentSession
  | .registering session | .publishing session => some session
  | _ => none

/-- The phases in which a connection waits for the gate or holds it. -/
def atGate : Phase → Bool
  | .publishing _ | .inserted _ | .removing _ | .withdrawn _ => true
  | _ => false

end Phase

/-- The connection whose section it is, and the phase that connection is in. -/
def Section.holder : Section → Option (Nat × Phase)
  | .reauthorize k session | .insertSession k session => some (k, .publishing session)
  | .sendInserted k session _ | .insertTunnel k session | .sendBound k session _ =>
    some (k, .inserted session)
  | .removeTunnel k session | .sendUnbound k session _ | .removeSession k session =>
    some (k, .removing session)
  | .sendRemoved k session _ => some (k, .withdrawn session.tunnelId)
  | .collectRevoked _ | .retainTunnels _ _ | .sendRetained _ _ _ | .removeRevoked _ _
  | .sendKept _ _ _ _ | .setStatus _ _ _ | .resolve _ | .enqueue _ => none

namespace Registry

variable {r r' : Registry} {k : Nat} {p p' : Phase} {α : Type} {tunnelId : TunnelId}
  {f : Phase → Option α} {id : TransportSessionId} {authorization : AuthorizedRegistration}
  {live : LiveSession} {session : AgentSession}

/-- What part `f` of the phase of connection `k` is. -/
def part {α : Type} (r : Registry) (f : Phase → Option α) (k : Nat) : Option α :=
  r.connections[k]?.bind f

theorem part_at (hAt : r.connections[k]? = some p) : r.part f k = f p := by
  simp [part, hAt]

theorem part_setPhase (hAt : r.connections[k]? = some p) (j : Nat) :
    (r.setPhase k p').part f j = if j = k then f p' else r.part f j := by
  have hLength := (List.getElem?_eq_some_iff.mp hAt).1
  by_cases hj : j = k
  · subst hj
    simp [part, setPhase, hLength]
  · simp [part, setPhase, hj, Ne.symm hj]

theorem part_setPhase_same (hAt : r.connections[k]? = some p) (hf : f p' = f p) (j : Nat) :
    (r.setPhase k p').part f j = r.part f j := by
  rw [part_setPhase hAt]
  split_ifs with hj
  · rw [hj, part_at hAt, hf]
  · rfl

theorem part_accept {peerCertificate : Option CertificateFingerprint}
    (hNone : f (.handshake peerCertificate) = none) (j : Nat) :
    part { r with connections := r.connections ++ [.handshake peerCertificate] } f j =
      r.part f j := by
  simp only [part, getElem?_append]
  split_ifs with hj
  · rfl
  · rw [getElem?_eq_none (Nat.le_of_not_lt hj)]
    cases hRest : [Phase.handshake peerCertificate][j - r.connections.length]? with
    | none => rfl
    | some => rw [mem_singleton.mp (mem_of_getElem? hRest)]; exact hNone

/-! ## The invariant -/

/-- Every registered session belongs to a connection, and what connections hold is
disjoint. -/
structure Owned (r : Registry) : Prop where
  /-- A principal is asked for its own tunnel. -/
  principal : ∀ k tunnelId authorization,
    r.part Phase.principal k = some (tunnelId, authorization) →
    authorization.tunnelId = tunnelId
  claimed : ∀ k tunnelId, r.part Phase.claim k = some tunnelId → tunnelId ∈ r.claims
  claimOnce : ∀ k k' tunnelId, r.part Phase.claim k = some tunnelId →
    r.part Phase.claim k' = some tunnelId → k = k'
  numbered : ∀ k session, r.part Phase.session k = some session → session.sessionId ≤ r.counter
  idOnce : ∀ k k' session session', r.part Phase.session k = some session →
    r.part Phase.session k' = some session' → session.sessionId = session'.sessionId → k = k'
  owner : ∀ id live, r.sessions[id]? = some live → ∃ k session,
    r.part Phase.session k = some session ∧ session.sessionId = id ∧
      session.authorization = live.authorization
  /-- A session that is still to be registered never was. -/
  pending : ∀ k session, r.part Phase.pending k = some session →
    session.sessionId ∉ r.sessions ∧ .removed session.sessionId ∉ r.log
  /-- A removed session stays out of the map. -/
  removed : ∀ id, .removed id ∈ r.log → id ≤ r.counter ∧ id ∉ r.sessions

section

variable (h : Owned r)
include h

theorem Owned.le_counter (hId : id ∈ r.sessions) : id ≤ r.counter := by
  obtain ⟨live, hLive⟩ := TreeMap.mem_iff_exists.mp hId
  obtain ⟨j, s, hs, rfl, -⟩ := h.owner id live hLive
  exact h.numbered j s hs

/-- Nothing is taken: what a connection holds, it held before. -/
theorem Owned.anti {connections : List Phase} (hNext : r' = { r with connections })
    (hPrincipal : ∀ k tunnelId authorization,
      r'.part Phase.principal k = some (tunnelId, authorization) →
      authorization.tunnelId = tunnelId)
    (hClaim : ∀ k x, r'.part Phase.claim k = some x → r.part Phase.claim k = some x)
    (hSession : ∀ k x, r'.part Phase.session k = some x → r.part Phase.session k = some x)
    (hPending : ∀ k x, r'.part Phase.pending k = some x → r.part Phase.pending k = some x)
    (hOwner : ∀ k x, r.part Phase.session k = some x → x.sessionId ∈ r.sessions →
      r'.part Phase.session k = some x) :
    Owned r' := by
  subst hNext
  exact
    { principal := hPrincipal
      claimed := fun k t ht => h.claimed k t (hClaim k t ht)
      claimOnce := fun k k' t ht ht' => h.claimOnce k k' t (hClaim k t ht) (hClaim k' t ht')
      numbered := fun k s hs => h.numbered k s (hSession k s hs)
      idOnce := fun k k' s s' hs hs' => h.idOnce k k' s s' (hSession k s hs) (hSession k' s' hs')
      owner := by
        intro id live hLive
        obtain ⟨k, s, hs, rfl, hAuthorization⟩ := h.owner id live hLive
        have hMem : s.sessionId ∈ r.sessions := TreeMap.mem_iff_exists.mpr ⟨live, hLive⟩
        exact ⟨k, s, hOwner k s hs hMem, rfl, hAuthorization⟩
      pending := fun k s hs => h.pending k s (hPending k s hs)
      removed := h.removed }

/-- A connection goes on and takes nothing it did not have. -/
theorem Owned.move (hAt : r.connections[k]? = some p) (p' : Phase)
    (hPrincipal : ∀ tunnelId authorization, p'.principal = some (tunnelId, authorization) →
      authorization.tunnelId = tunnelId)
    (hClaim : ∀ x, p'.claim = some x → p.claim = some x)
    (hSession : ∀ x, p'.session = some x → p.session = some x)
    (hPending : ∀ x, p'.pending = some x → p.pending = some x)
    (hOwner : ∀ x, p.session = some x → x.sessionId ∈ r.sessions → p'.session = some x) :
    Owned (r.setPhase k p') := by
  have hAnti : ∀ {α : Type} {f : Phase → Option α}, (∀ x, f p' = some x → f p = some x) →
      ∀ j x, (r.setPhase k p').part f j = some x → r.part f j = some x := by
    intro α _ hf _ x hx
    rw [part_setPhase hAt] at hx
    split_ifs at hx with hj
    · rw [hj, part_at hAt]
      exact hf x hx
    · exact hx
  refine h.anti rfl ?_ (hAnti hClaim) (hAnti hSession) (hAnti hPending) ?_
  · intro j tunnelId authorization hx
    rw [part_setPhase hAt] at hx
    split_ifs at hx
    · exact hPrincipal tunnelId authorization hx
    · exact h.principal j tunnelId authorization hx
  · intro _ x hx hMem
    rw [part_setPhase hAt]
    split_ifs with hj
    · rw [hj, part_at hAt] at hx
      exact hOwner x hx hMem
    · exact hx

theorem Owned.moved (hAt : r.connections[k]? = some p)
    (hMove : Phase.Move r.mode p p') : Owned (r.setPhase k p') := by
  have hPrincipal := fun tunnelId authorization hp =>
    h.principal k tunnelId authorization ((part_at hAt).trans hp)
  have hPending := fun session hp => h.pending k session ((part_at hAt).trans hp)
  cases hMove with
  | authorize _ _ _ hOk =>
    refine h.move hAt _ ?_ (by simp [Phase.claim]) (by simp [Phase.session])
      (by simp [Phase.pending]) (by simp [Phase.session])
    rintro _ _ ⟨⟩
    exact EdgeRegistrationMode.authorize_tunnelId hOk
  | reject | taken =>
    exact h.move hAt _ (by simp [Phase.principal]) (by simp [Phase.claim])
      (by simp [Phase.session]) (by simp [Phase.pending]) (by simp [Phase.session])
  | exhausted =>
    exact h.move hAt _ (by simp [Phase.principal]) (fun _ hx => hx)
      (by simp [Phase.session]) (by simp [Phase.pending]) (by simp [Phase.session])
  | registered =>
    exact h.move hAt _ hPrincipal (fun _ hx => hx) (fun _ hx => hx) (fun _ hx => hx)
      (fun _ hx _ => hx)
  | fail session =>
    refine h.move hAt _ (by simp [Phase.principal]) (fun _ hx => hx)
      (by simp [Phase.session]) (by simp [Phase.pending]) ?_
    -- the session is dropped before it was registered
    rintro _ ⟨⟩ hMem
    exact absurd hMem (hPending session rfl).1
  | ends =>
    exact h.move hAt _ hPrincipal (fun _ hx => hx) (fun _ hx => hx) (by simp [Phase.pending])
      (fun _ hx _ => hx)

theorem Owned.accepted (peerCertificate : Option CertificateFingerprint) :
    Owned { r with connections := r.connections ++ [.handshake peerCertificate] } := by
  have hSame : ∀ {α : Type} {f : Phase → Option α}, f (.handshake peerCertificate) = none →
      ∀ j x, part { r with connections := r.connections ++ [.handshake peerCertificate] } f j =
        some x ↔ r.part f j = some x := fun hNone j x => by rw [part_accept hNone]
  refine h.anti rfl ?_ ?_ ?_ ?_ ?_
  · exact fun j t a hx => h.principal j t a ((hSame rfl j _).mp hx)
  iterate 3
    · exact fun j x => (hSame rfl j x).mp
  · exact fun j x hx _ => (hSame rfl j x).mpr hx

theorem Owned.claims (hAt : r.connections[k]? = some (.authorized tunnelId authorization))
    (hFree : tunnelId ∉ r.claims) :
    Owned { r.setPhase k (.claimed tunnelId authorization) with
      claims := tunnelId :: r.claims } := by
  -- only the claim changes hands
  have hPrincipal (j : Nat) : (r.setPhase k (.claimed tunnelId authorization)).part
      Phase.principal j = r.part Phase.principal j := part_setPhase_same hAt (by rfl) j
  have hSession (j : Nat) : (r.setPhase k (.claimed tunnelId authorization)).part
      Phase.session j = r.part Phase.session j := part_setPhase_same hAt (by rfl) j
  have hPending (j : Nat) : (r.setPhase k (.claimed tunnelId authorization)).part
      Phase.pending j = r.part Phase.pending j := part_setPhase_same hAt (by rfl) j
  have hClaim : ∀ j x, (r.setPhase k (.claimed tunnelId authorization)).part Phase.claim j =
      some x → j = k ∧ x = tunnelId ∨ x ≠ tunnelId ∧ r.part Phase.claim j = some x := by
    intro j x hx
    rw [part_setPhase hAt] at hx
    split_ifs at hx with hj
    · cases hx
      exact .inl ⟨hj, rfl⟩
    · exact .inr ⟨fun hEq => hFree (hEq ▸ h.claimed j x hx), hx⟩
  constructor
  · exact fun j t a hx => h.principal j t a ((hPrincipal j).symm.trans hx)
  · intro j x hx
    rcases hClaim j x hx with ⟨-, rfl⟩ | ⟨-, hx⟩
    · exact mem_cons_self
    · exact mem_cons_of_mem _ (h.claimed j x hx)
  · intro j j' x hx hx'
    rcases hClaim j x hx with ⟨rfl, rfl⟩ | ⟨hNe, hx⟩ <;>
      rcases hClaim j' x hx' with ⟨rfl, hEq⟩ | ⟨hNe', hx'⟩
    · rfl
    · exact absurd rfl hNe'
    · exact absurd hEq hNe
    · exact h.claimOnce j j' x hx hx'
  · exact fun j s hs => h.numbered j s ((hSession j).symm.trans hs)
  · exact fun j j' s s' hs hs' => h.idOnce j j' s s' ((hSession j).symm.trans hs)
      ((hSession j').symm.trans hs')
  · intro id live hLive
    obtain ⟨j, s, hs, hRest⟩ := h.owner id live hLive
    exact ⟨j, s, (hSession j).trans hs, hRest⟩
  · exact fun j s hs => h.pending j s ((hPending j).symm.trans hs)
  · exact h.removed

theorem Owned.allocates (hAt : r.connections[k]? = some (.claimed tunnelId authorization)) :
    Owned { r.setPhase k (.registering ⟨r.counter + 1, tunnelId, authorization⟩) with
      counter := r.counter + 1 } := by
  have hPrincipal (j : Nat) : (r.setPhase k (.registering ⟨r.counter + 1, tunnelId,
      authorization⟩)).part Phase.principal j = r.part Phase.principal j :=
    part_setPhase_same hAt (by rfl) j
  have hClaim (j : Nat) : (r.setPhase k (.registering ⟨r.counter + 1, tunnelId,
      authorization⟩)).part Phase.claim j = r.part Phase.claim j :=
    part_setPhase_same hAt (by rfl) j
  -- a session is the new one or an older one with a smaller number
  have hSession : ∀ j s, (r.setPhase k (.registering ⟨r.counter + 1, tunnelId,
      authorization⟩)).part Phase.session j = some s →
      j = k ∧ s.sessionId = r.counter + 1 ∨
        s.sessionId ≤ r.counter ∧ r.part Phase.session j = some s := by
    intro j s hs
    rw [part_setPhase hAt] at hs
    split_ifs at hs with hj
    · cases hs
      exact .inl ⟨hj, rfl⟩
    · exact .inr ⟨h.numbered j s hs, hs⟩
  constructor
  · exact fun j t a hx => h.principal j t a ((hPrincipal j).symm.trans hx)
  · exact fun j t hx => h.claimed j t ((hClaim j).symm.trans hx)
  · exact fun j j' t hx hx' => h.claimOnce j j' t ((hClaim j).symm.trans hx)
      ((hClaim j').symm.trans hx')
  · intro j s hs
    rcases hSession j s hs with ⟨-, hId⟩ | ⟨hLe, -⟩
    · exact hId.le
    · exact Nat.le_succ_of_le hLe
  · intro j j' s s' hs hs' hEq
    rcases hSession j s hs with ⟨rfl, hId⟩ | ⟨hLe, hOld⟩ <;>
      rcases hSession j' s' hs' with ⟨rfl, hId'⟩ | ⟨hLe', hOld'⟩
    · rfl
    · rw [← hEq, hId] at hLe'
      exact absurd hLe' (Nat.not_succ_le_self _)
    · rw [hEq, hId'] at hLe
      exact absurd hLe (Nat.not_succ_le_self _)
    · exact h.idOnce j j' s s' hOld hOld' hEq
  · intro id live hLive
    obtain ⟨j, s, hs, hRest⟩ := h.owner id live hLive
    have hj : j ≠ k := by
      rintro rfl
      rw [part_at hAt] at hs
      cases hs
    exact ⟨j, s, by rw [← hs]; exact (part_setPhase hAt j).trans (if_neg hj), hRest⟩
  · intro j s hs
    have hs' := (part_setPhase hAt j).symm.trans hs
    split_ifs at hs' with hj
    · cases hs'
      exact ⟨fun hMem => absurd (h.le_counter hMem) (Nat.not_succ_le_self _),
        fun hMem => absurd (h.removed _ hMem).1 (Nat.not_succ_le_self _)⟩
    · exact h.pending j s hs'
  · intro id hId
    exact ⟨Nat.le_succ_of_le (h.removed id hId).1, (h.removed id hId).2⟩

theorem Owned.releases (hAt : r.connections[k]? = some (.closing tunnelId)) :
    Owned { r.setPhase k .finished with claims := r.claims.filter (· ≠ tunnelId) } := by
  have hMoved : Owned (r.setPhase k .finished) := h.move hAt _ (by simp [Phase.principal])
    (by simp [Phase.claim]) (by simp [Phase.session]) (by simp [Phase.pending])
    (by simp [Phase.session])
  refine { hMoved with claimed := ?_ }
  intro j x hx
  have hx' := (part_setPhase hAt j).symm.trans hx
  split_ifs at hx' with hj
  · cases hx'
  -- another connection claims another tunnel
  · have hNe : x ≠ tunnelId := by
      rintro rfl
      exact hj (h.claimOnce j k x hx' (part_at hAt))
    exact mem_filter.mpr ⟨h.claimed j x hx', by simpa using hNe⟩

/-- Sessions leave the map, and the log says which. -/
theorem Owned.shrinks (hConnections : r'.connections = r.connections)
    (hClaims : r'.claims = r.claims) (hCounter : r'.counter = r.counter)
    (hSessions : ∀ (id : TransportSessionId) live,
      r'.sessions[id]? = some live → r.sessions[id]? = some live)
    (hLog : ∀ id, .removed id ∈ r'.log →
      .removed id ∈ r.log ∨ id ∈ r.sessions ∧ id ∉ r'.sessions) : Owned r' := by
  have hPart : ∀ {α : Type} {f : Phase → Option α} (j : Nat), r'.part f j = r.part f j := by
    intro α _ _
    rw [part, part, hConnections]
  have hMem : ∀ id, id ∈ r'.sessions → id ∈ r.sessions := by
    intro id hId
    obtain ⟨live, hLive⟩ := TreeMap.mem_iff_exists.mp hId
    exact TreeMap.mem_iff_exists.mpr ⟨live, hSessions id live hLive⟩
  constructor
  · exact fun j t a hx => h.principal j t a ((hPart j).symm.trans hx)
  · exact fun j t hx => hClaims ▸ h.claimed j t ((hPart j).symm.trans hx)
  · exact fun j j' t hx hx' => h.claimOnce j j' t ((hPart j).symm.trans hx)
      ((hPart j').symm.trans hx')
  · exact fun j s hs => hCounter ▸ h.numbered j s ((hPart j).symm.trans hs)
  · exact fun j j' s s' hs hs' => h.idOnce j j' s s' ((hPart j).symm.trans hs)
      ((hPart j').symm.trans hs')
  · intro id live hLive
    obtain ⟨j, s, hs, hRest⟩ := h.owner id live (hSessions id live hLive)
    exact ⟨j, s, (hPart j).trans hs, hRest⟩
  · intro j s hs
    have hOld := h.pending j s ((hPart j).symm.trans hs)
    refine ⟨fun hIn => hOld.1 (hMem _ hIn), fun hRemoved => ?_⟩
    rcases hLog _ hRemoved with hBefore | ⟨hIn, -⟩
    · exact hOld.2 hBefore
    · exact hOld.1 hIn
  · intro id hId
    rw [hCounter]
    rcases hLog id hId with hBefore | ⟨hIn, hOut⟩
    · exact ⟨(h.removed id hBefore).1, fun hIn => (h.removed id hBefore).2 (hMem id hIn)⟩
    · exact ⟨h.le_counter hIn, hOut⟩

/-- The session of a connection that holds the gate enters the map. -/
theorem Owned.inserts (hAt : r.connections[k]? = some (.publishing session)) :
    Owned { r.setPhase k (.inserted session) with
      sessions := r.sessions.insert session.sessionId ⟨session.sessionId, session.authorization⟩
      log := r.log ++ [.registered session.sessionId] } := by
  have hNew := h.pending k session (part_at hAt)
  have hMoved : Owned (r.setPhase k (.inserted session)) :=
    h.move hAt _ (fun t a hx => h.principal k t a ((part_at hAt).trans hx)) (fun _ hx => hx)
      (fun _ hx => hx) (by simp [Phase.pending]) (fun _ hx _ => hx)
  have hIn : (r.setPhase k (.inserted session)).part Phase.session k = some session := by
    rw [part_setPhase hAt, if_pos rfl]
    rfl
  refine { hMoved with owner := ?_, pending := ?_, removed := ?_ }
  · intro id live hLive
    rw [ExtTreeMap.getElem?_insert] at hLive
    split_ifs at hLive with hId
    · cases hLive
      exact ⟨k, session, hIn, Std.compare_eq_iff_eq.mp hId, rfl⟩
    · exact hMoved.owner id live hLive
  · intro j s hs
    have hOld := hMoved.pending j s hs
    -- the ids differ, or the connection would be `k`, which is past that point
    have hNe : session.sessionId ≠ s.sessionId := by
      intro hEq
      have hs' := (part_setPhase hAt j).symm.trans hs
      split_ifs at hs' with hj
      · cases hs'
      · have hSession : r.part Phase.session j = some s := by
          revert hs'
          unfold part
          cases r.connections[j]? with
          | none => simp
          | some q => cases q <;> simp [Phase.pending, Phase.session]
        exact hj (h.idOnce j k s session hSession (part_at hAt) hEq.symm)
    simp only [ExtTreeMap.mem_insert, Std.compare_eq_iff_eq, mem_append, mem_singleton,
      reduceCtorEq, or_false, not_or]
    exact ⟨⟨hNe, hOld.1⟩, hOld.2⟩
  · intro id hId
    simp only [mem_append, mem_singleton, reduceCtorEq, or_false] at hId
    have hOld := h.removed id hId
    simp only [ExtTreeMap.mem_insert, Std.compare_eq_iff_eq, not_or]
    refine ⟨hOld.1, fun hEq => hNew.2 (hEq ▸ hId), hOld.2⟩

/-- The invariant looks at five fields only. -/
theorem Owned.congr (hConnections : r'.connections = r.connections)
    (hClaims : r'.claims = r.claims) (hCounter : r'.counter = r.counter)
    (hSessions : r'.sessions = r.sessions) (hLog : r'.log = r.log) : Owned r' :=
  h.shrinks hConnections hClaims hCounter (fun _ _ hLive => hSessions ▸ hLive)
    (fun _ hRemoved => .inl (hLog ▸ hRemoved))

end

/-- The connection that holds the gate is where its section says. -/
def Held (r : Registry) : Prop :=
  ∀ stage k p, r.gate = some stage → stage.holder = some (k, p) → r.connections[k]? = some p

variable {stage : Section}

theorem enqueueIo_same {sessionId : TransportSessionId} (h : r.enqueueIo sessionId = .ok r') :
    sessionId ∈ r.sessions ∧
      r' = { r with channels := r'.channels, log := r.log ++ [.opened sessionId] } := by
  unfold enqueueIo at h
  split at h
  · cases h
  · split at h
    · cases h
    · rename_i live hLive
      have hMem : sessionId ∈ r.sessions :=
        TreeMap.mem_iff_exists.mpr ⟨live, hLive⟩
      split at h
      · cases h
      · split at h <;> cases h
        exact ⟨hMem, rfl⟩

/-- Opening a stream leaves the gate free, and touches the channels and the log only. -/
theorem runSection_enqueue (r : Registry) (id : TransportSessionId) :
    ∃ channels events, r.runSection (.enqueue id) =
        { r with gate := none, channels := channels, log := r.log ++ events } ∧
      ∀ event ∈ events, event = .opened id ∧ id ∈ r.sessions := by
  simp only [runSection]
  split
  · exact ⟨r.channels, [], by simp, by simp⟩
  · rename_i hOk
    obtain ⟨hMem, hEq⟩ := enqueueIo_same hOk
    exact ⟨_, [.opened id], by rw [hEq], by simp [hMem]⟩

/-- What the holder of the gate does keeps the invariant. -/
theorem Owned.runSection (h : Owned r) (hHeld : Held r) (hGate : r.gate = some stage) :
    Owned (r.runSection stage) := by
  cases stage with
  | reauthorize k session =>
    have hAt := hHeld _ k _ hGate rfl
    simp only [runSection]
    split
    · exact { h with }
    · have hMoved : Owned (r.setPhase k (.closing session.tunnelId)) := by
        refine h.move hAt _ (by simp [Phase.principal]) (fun _ hx => hx) (by simp [Phase.session])
          (by simp [Phase.pending]) ?_
        -- what is refused now has never been in the map
        rintro _ ⟨⟩ hMem
        exact absurd hMem (h.pending k session (part_at hAt)).1
      exact { hMoved with }
  | insertSession k =>
    exact { h.inserts (hHeld _ k _ hGate rfl) with }
  | sendBound k session =>
    have hAt := hHeld _ k _ hGate rfl
    have hMoved : Owned (r.setPhase k (.running session)) :=
      h.move hAt _ (fun t a hx => h.principal k t a ((part_at hAt).trans hx)) (fun _ hx => hx)
        (fun _ hx => hx) (by simp [Phase.pending]) (fun _ hx _ => hx)
    exact { hMoved with }
  | removeSession k session =>
    have hAt := hHeld _ k _ hGate rfl
    -- the map shrinks first, so that the connection no longer owns anything in it
    have hShrunk : Owned { r with
        sessions := r.sessions.erase session.sessionId
        log := if session.sessionId ∈ r.sessions
          then r.log ++ [.removed session.sessionId] else r.log } := by
      refine h.shrinks rfl rfl rfl ?_ ?_
      · intro _ _ hLive
        rw [ExtTreeMap.getElem?_erase] at hLive
        split_ifs at hLive
        exact hLive
      · intro _ hId
        split_ifs at hId with hMem
        · rcases mem_append.mp hId with hOld | hNew
          · exact .inl hOld
          · cases mem_singleton.mp hNew
            exact .inr ⟨hMem, by simp⟩
        · exact .inl hId
    have hMoved := hShrunk.move hAt (.withdrawn session.tunnelId) (by simp [Phase.principal])
      (fun _ hx => hx) (by simp [Phase.session]) (by simp [Phase.pending])
      (by rintro _ ⟨⟩ hMem; simp at hMem)
    exact { hMoved with }
  | sendRemoved k session =>
    have hMoved : Owned (r.setPhase k (.closing session.tunnelId)) :=
      h.move (hHeld _ k _ hGate rfl) _ (by simp [Phase.principal]) (fun _ hx => hx)
        (by simp [Phase.session]) (by simp [Phase.pending]) (by simp [Phase.session])
    exact { hMoved with }
  | collectRevoked | resolve =>
    simp only [runSection]
    split <;> exact { h with }
  | removeRevoked =>
    refine h.shrinks rfl rfl rfl ?_ ?_
    · intro _ _ hLive
      simp only [runSection, ExtTreeMap.getElem?_filter'] at hLive
      exact (filter_eq_some_iff.mp hLive).1
    · intro _ hId
      rcases mem_append.mp hId with hOld | hNew
      · exact .inl hOld
      · obtain ⟨_, hMem, hEq⟩ := mem_map.mp hNew
        cases hEq
        obtain ⟨hRevoked, hIn⟩ := mem_filter.mp hMem
        refine .inr ⟨by simpa using hIn, ?_⟩
        simp [runSection, TreeMap.mem_iff_exists, hRevoked]
  | enqueue id =>
    obtain ⟨_, events, hNext, hEvents⟩ := r.runSection_enqueue id
    rw [hNext]
    refine h.shrinks rfl rfl rfl (fun _ _ hLive => hLive) fun _ hId => .inl ?_
    exact (mem_append.mp hId).resolve_right fun hNew => (by cases (hEvents _ hNew).1)
  | _ => exact { h with }

/-! ## The holder of the gate -/

/-- A connection that is not at the gate moves. -/
theorem Held.setPhase (h : Held r) (hAt : r.connections[k]? = some p) (hAway : ¬p.atGate) :
    Held (r.setPhase k p') := by
  intro stage j q hGate hHolder
  have hq := h stage j q hGate hHolder
  have hj : k ≠ j := by
    rintro rfl
    obtain rfl : p = q := Option.some.inj (hAt.symm.trans hq)
    exact hAway (by cases stage <;> cases hHolder <;> rfl)
  simpa [Registry.setPhase, hj] using hq

theorem Held.runSection (h : Held r) (hGate : r.gate = some stage) : Held (r.runSection stage) := by
  have hAt := fun k p => h stage k p hGate
  intro _ k p hGate' hHolder
  cases stage with
  | reauthorize _ _ =>
    simp only [runSection] at hGate' ⊢
    split at hGate'
    · cases hGate'
      rw [if_pos (by assumption)]
      exact hAt k p hHolder
    · cases hGate'
  | insertSession | removeSession =>
    cases hGate'
    cases hHolder
    simp [runSection, Registry.setPhase, (List.getElem?_eq_some_iff.mp (hAt _ _ rfl)).1]
  | sendInserted | insertTunnel | removeTunnel | sendUnbound =>
    cases hGate'
    cases hHolder
    exact hAt _ _ rfl
  | sendBound | sendRemoved | setStatus => cases hGate'
  | collectRevoked =>
    simp only [runSection] at hGate'
    split at hGate' <;> cases hGate' <;> cases hHolder
  | retainTunnels | sendRetained | removeRevoked | sendKept =>
    cases hGate'
    cases hHolder
  | resolve =>
    simp only [runSection] at hGate'
    split at hGate' <;> cases hGate'
    cases hHolder
  | enqueue =>
    simp only [runSection] at hGate'
    split at hGate' <;> cases hGate'

theorem Held.effect (h : Held r) (hEffect : Effect r r') : Held r' := by
  cases hEffect with
  | same | publish | read => exact h
  | accept =>
    intro stage j q hGate hHolder
    have hq := h stage j q hGate hHolder
    exact (getElem?_append_left (List.getElem?_eq_some_iff.mp hq).1).trans hq
  | move _ _ _ hAt hMove => exact h.setPhase hAt (by cases hMove <;> simp [Phase.atGate])
  | claim k tunnelId authorization hAt | allocate k tunnelId authorization hAt
  | release _ _ hAt => exact h.setPhase hAt (by simp [Phase.atGate])
  | lock _ _ hEnters =>
    intro _ _ _ hGate hHolder
    cases hGate
    cases hEnters with
    | publish k session hAt | remove k session hAt =>
      cases hHolder
      exact hAt
    | reconcile | resolve | enqueue => cases hHolder
  | holder _ hGate => exact h.runSection hGate

theorem Owned.effect (h : Owned r) (hHeld : Held r) (hEffect : Effect r r') : Owned r' := by
  cases hEffect with
  | same => exact h
  | publish | read | lock => exact { h with }
  | accept peerCertificate => exact h.accepted peerCertificate
  | move _ _ _ hAt hMove => exact h.moved hAt hMove
  | claim _ _ _ hAt hFree => exact h.claims hAt hFree
  | allocate _ _ _ hAt => exact h.allocates hAt
  | release _ _ hAt => exact h.releases hAt
  | holder _ hGate => exact h.runSection hHeld hGate

/-- The ownership invariant with the position of the holder. -/
structure Sound (r : Registry) : Prop where
  owned : Owned r
  held : Held r

theorem sound_bind (config : RegistryConfig) (mode : EdgeRegistrationMode)
    (health : SnapshotSourceHealth) (unseen : Bool) :
    Sound (bind config mode health unseen) where
  owned := by constructor <;> simp [bind, part]
  held := by rintro _ _ _ ⟨⟩

theorem Sound.effect (h : Sound r) (hEffect : Effect r r') : Sound r' where
  owned := h.owned.effect h.held hEffect
  held := h.held.effect hEffect

theorem Sound.same (h : Sound r) (hSame : Same r r') : Sound r' where
  owned := h.owned.congr hSame.connections hSame.claims hSame.counter hSame.sessions hSame.log
  held stage k p hGate hHolder := by
    rw [hSame.connections]
    exact h.held stage k p (hSame.gate ▸ hGate) hHolder

theorem Sound.step {a : Action} (h : Sound r) (hStep : r.step a = some r') : Sound r' := by
  obtain ⟨_, hEffect, hSame⟩ := step_effect hStep
  exact (h.effect hEffect).same hSame

/-! ## What ownership gives -/

theorem part_session (h : r.part Phase.session k = some session) :
    r.part Phase.claim k = some session.tunnelId ∧
      r.part Phase.principal k = some (session.tunnelId, session.authorization) := by
  obtain ⟨p, hAt, hp⟩ := bind_eq_some_iff.mp h
  rw [part_at hAt, part_at hAt]
  cases p <;> cases hp <;> exact ⟨rfl, rfl⟩

/-- The registered session of a connection was authorized for the tunnel it claims. -/
theorem Owned.tunnel_eq (h : Owned r) (hSession : r.part Phase.session k = some session)
    (hLive : r.sessions[session.sessionId]? = some live) :
    live.authorization.tunnelId = session.tunnelId := by
  obtain ⟨k', session', hSession', hId, hAuthorization⟩ := h.owner _ live hLive
  obtain rfl := h.idOnce k' k session' session hSession' hSession hId
  cases hSession.symm.trans hSession'
  rw [← hAuthorization]
  exact h.principal _ _ _ (part_session hSession).2

/-- Registered sessions have distinct tunnels, because their connections hold the
claims. -/
theorem Owned.tunnel_inj (h : Owned r) {id' : TransportSessionId} {live' : LiveSession}
    (hLive : r.sessions[id]? = some live) (hLive' : r.sessions[id']? = some live')
    (hTunnel : live.authorization.tunnelId = live'.authorization.tunnelId) : id = id' := by
  obtain ⟨k, session, hSession, rfl, -⟩ := h.owner id live hLive
  obtain ⟨k', _, hSession', rfl, -⟩ := h.owner id' live' hLive'
  rw [h.tunnel_eq hSession hLive, h.tunnel_eq hSession' hLive'] at hTunnel
  obtain rfl := h.claimOnce k k' session.tunnelId (part_session hSession).1
    (hTunnel ▸ (part_session hSession').1)
  cases hSession.symm.trans hSession'
  rfl

end Registry

end TunnelProxy.Edge
