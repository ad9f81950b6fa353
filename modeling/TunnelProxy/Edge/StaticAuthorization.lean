import TunnelProxy.Common.TlsReload
import TunnelProxy.Control.Snapshot
import TunnelProxy.Lib.Transition

/-!
# Static authorization that is reloaded with TLS

An Edge started by `bootstrap_with_static_authorization` takes its TLS identity and the one
Agent certificate that it authorizes from the same manifest. A poll publishes the snapshot
while the candidate is built, and then the candidate, which may still be refused.

* `InStep.step` — a poll whose newer candidate is within its validity keeps the two together
* `static_authorization_in_step` — what holds after any such polls
-/

namespace TunnelProxy.Edge

open Common Control Transition Option

variable {τ : Type}

/-- What `load_tls_reload_generation` returns: the server configuration that
`build_reload_generation` makes of it, and the certificate in its file
`authorized_client_certificate`, where they are well formed. -/
structure TlsReloadGeneration (τ : Type) where
  generation : Nat
  manifestDigest : FixedBytes 32
  built : Option (τ × TlsCertificateValidity)
  authorized : Option CertificateFingerprint

namespace TlsReloadGeneration

def candidate (g : TlsReloadGeneration τ) : Option (TlsCandidate τ) :=
  g.built.map fun (config, validity) => ⟨g.generation, g.manifestDigest, config, validity⟩

/-- `static_authorization_snapshot`, with its version. -/
def authorization (agentId : AgentId) (tunnelId : TunnelId) (g : TlsReloadGeneration τ) :
    Option VersionedAuthorizationSnapshot := do
  let certificate ← g.authorized
  let snapshot ← (AuthorizationSnapshot.new
    [⟨certificate, agentId, [⟨tunnelId, .enabled⟩]⟩]).toOption
  let version ← SnapshotVersion.new g.generation
  some ⟨version, snapshot⟩

end TlsReloadGeneration

/-- One poll: what it loads, and the clock as in `TlsPoll`. -/
structure StaticPoll (τ : Type) where
  loaded : Option (TlsReloadGeneration τ)
  publishedAt : Int
  statusAt : Int

structure StaticEdge (τ : Type) where
  tls : TlsRuntime τ
  /-- the snapshot of the publisher -/
  current : VersionedAuthorizationSnapshot

namespace StaticEdge

variable (agentId : AgentId) (tunnelId : TunnelId) (expiryWarning : Nat)

def bootstrap (g : TlsReloadGeneration τ) : Option (StaticEdge τ) := do
  let candidate ← g.candidate
  let current ← g.authorization agentId tunnelId
  some ⟨.start candidate, current⟩

/-- The closure `build`, if the load succeeded: the snapshot is published as soon as both parts
are there. -/
def build (current : VersionedAuthorizationSnapshot) :
    Option (TlsReloadGeneration τ) → Option (TlsCandidate τ) × VersionedAuthorizationSnapshot
  | none => (none, current)
  | some g =>
    match g.candidate, g.authorization agentId tunnelId with
    | some candidate, some snapshot =>
      match publish current snapshot with
      | .ok (_, next) => (some candidate, next)
      | .error _ => (none, current)
    | _, _ => (none, current)

/-- One turn of the loop; `none` once the runtime has ended. -/
def step (s : StaticEdge τ) (p : StaticPoll τ) : Option (StaticEdge τ) :=
  if s.tls.ended.isSome then none
  else
    let (offered, current) := build agentId tunnelId s.current p.loaded
    some ⟨s.tls.poll expiryWarning ⟨offered, p.publishedAt, p.statusAt⟩, current⟩

/-- A newer generation that is built is within its validity when TLS publishes it. -/
def InTime (s : StaticEdge τ) (p : StaticPoll τ) : Prop :=
  ∀ g candidate, p.loaded = some g → g.candidate = some candidate →
    s.tls.state.active.generation < g.generation →
    candidate.validity.notBefore ≤ p.publishedAt ∧ p.publishedAt < candidate.validity.notAfter

variable {agentId : AgentId} {tunnelId : TunnelId} {expiryWarning : Nat} {s s' : StaticEdge τ}
  {g : TlsReloadGeneration τ} {p : StaticPoll τ} {known : List (TlsReloadGeneration τ)}

/-- Both stores hold what one of the loaded manifests says. -/
def InStep (agentId : AgentId) (tunnelId : TunnelId) (s : StaticEdge τ)
    (known : List (TlsReloadGeneration τ)) : Prop :=
  ∃ g ∈ known, g.candidate = some s.tls.state.active ∧
    g.authorization agentId tunnelId = some s.current

theorem generation_of_candidate {candidate : TlsCandidate τ} (h : g.candidate = some candidate) :
    candidate.generation = g.generation := by
  obtain ⟨_, -, rfl⟩ := map_eq_some_iff.mp h
  rfl

theorem version_of_authorization {snapshot : VersionedAuthorizationSnapshot}
    (h : g.authorization agentId tunnelId = some snapshot) :
    snapshot.version.value = g.generation := by
  obtain ⟨_, -, h⟩ := bind_eq_some_iff.mp h
  obtain ⟨_, -, h⟩ := bind_eq_some_iff.mp h
  obtain ⟨_, hVersion, ⟨⟩⟩ := bind_eq_some_iff.mp h
  unfold SnapshotVersion.new at hVersion
  split_ifs at hVersion
  cases hVersion
  rfl

section

variable (h : InStep agentId tunnelId s known)
include h

theorem InStep.version_eq :
    s.current.version.value = s.tls.state.active.generation := by
  obtain ⟨_, -, hCandidate, hAuthorization⟩ := h
  rw [version_of_authorization hAuthorization, generation_of_candidate hCandidate]

omit h in
/-- The snapshot stays, and no newer candidate is offered; or it is that of a newer manifest,
and the candidate of the same manifest is offered. -/
theorem build_cases (current : VersionedAuthorizationSnapshot)
    (loaded : Option (TlsReloadGeneration τ)) :
    (∃ offered, build agentId tunnelId current loaded = (offered, current) ∧
        ∀ candidate, offered = some candidate → candidate.generation ≤ current.version.value) ∨
      ∃ g candidate snapshot, loaded = some g ∧ g.candidate = some candidate ∧
        g.authorization agentId tunnelId = some snapshot ∧
        current.version.value < g.generation ∧
        build agentId tunnelId current loaded = (some candidate, snapshot) := by
  cases loaded with
  | none => exact .inl ⟨none, rfl, by rintro _ ⟨⟩⟩
  | some g =>
    simp only [build]
    split
    · rename_i candidate snapshot hCandidate hAuthorization
      have hVersion := version_of_authorization hAuthorization
      have hGeneration := generation_of_candidate hCandidate
      unfold publish
      split_ifs with hStale hSame
      · exact .inl ⟨none, rfl, by rintro _ ⟨⟩⟩
      · refine .inl ⟨_, rfl, ?_⟩
        rintro _ ⟨⟩
        rw [hGeneration, ← hVersion, hSame]
      · exact .inl ⟨none, rfl, by rintro _ ⟨⟩⟩
      · have hNewer : current.version < snapshot.version :=
          lt_of_le_of_ne (not_lt.mp hStale) (Ne.symm hSame)
        exact .inr ⟨g, candidate, snapshot, rfl, hCandidate, hAuthorization,
          hVersion ▸ hNewer, rfl⟩
    · exact .inl ⟨none, rfl, by rintro _ ⟨⟩⟩

/-- A poll leaves both as they are, or both come from the manifest that it loaded. -/
theorem InStep.cases (hTime : s.InTime p)
    (hStep : step agentId tunnelId expiryWarning s p = some s') :
    s'.tls.state.active = s.tls.state.active ∧ s'.current = s.current ∨
      s'.tls.state.reloadFailed = false ∧ ∃ g, p.loaded = some g ∧
        g.candidate = some s'.tls.state.active ∧
        g.authorization agentId tunnelId = some s'.current := by
  have hVersion := h.version_eq
  unfold step at hStep
  split_ifs at hStep with hEnded
  have hRunning : s.tls.ended = none := by simpa using hEnded
  rcases build_cases s.current p.loaded with ⟨offered, hBuild, hOld⟩ |
    ⟨g, candidate, snapshot, hLoaded, hCandidate, hAuthorization, hNewer, hBuild⟩ <;>
    rw [hBuild] at hStep <;> cases hStep
  · left
    rcases s.tls.state.reload_cases offered p.publishedAt with
      ⟨-, hReload⟩ | ⟨-, candidate, hOffered, ⟨-, hReload⟩ | ⟨hNewer, -⟩⟩
    · rw [TlsRuntime.poll_of_running hRunning hReload]
      exact ⟨rfl, rfl⟩
    · rw [TlsRuntime.poll_of_running hRunning hReload]
      exact ⟨rfl, rfl⟩
    · have hLe := hOld candidate hOffered
      omega
  · right
    have hGeneration := generation_of_candidate hCandidate
    have hValid := hTime g candidate hLoaded hCandidate (by omega)
    -- newer and within its validity, the candidate is taken
    rcases s.tls.state.reload_cases (some candidate) p.publishedAt with
      ⟨hFails, -⟩ | ⟨-, _, ⟨⟩, ⟨hSame, -⟩ | ⟨-, hReload⟩⟩
    · rcases hFails candidate rfl with hOut | hOlder | ⟨hSame, -⟩
      · exact absurd hValid hOut
      · omega
      · omega
    · omega
    · rw [TlsRuntime.poll_of_running hRunning hReload]
      exact ⟨rfl, g, hLoaded, hCandidate, hAuthorization⟩

theorem InStep.step (hTime : s.InTime p)
    (hStep : step agentId tunnelId expiryWarning s p = some s') :
    InStep agentId tunnelId s' (known ++ p.loaded.toList) := by
  rcases h.cases hTime hStep with ⟨hActive, hCurrent⟩ | ⟨-, g, hLoaded, hBoth⟩
  · obtain ⟨g, hMem, hBoth⟩ := h
    exact ⟨g, List.mem_append_left _ hMem, by rwa [hActive, hCurrent]⟩
  · exact ⟨g, by simp [hLoaded], hBoth⟩

theorem InStep.run {polls : List (StaticPoll τ)}
    (hTime : Guarded (StaticEdge.step agentId tunnelId expiryWarning) InTime s polls)
    (hRun : exec (StaticEdge.step agentId tunnelId expiryWarning) s polls = some s') :
    InStep agentId tunnelId s' (known ++ polls.filterMap StaticPoll.loaded) := by
  induction polls generalizing s known with
  | nil =>
    cases hRun
    simpa using h
  | cons p rest ih =>
    obtain ⟨s₁, hStep, hRest⟩ := exec_cons_eq_some.mp hRun
    have hLater := ih (h.step hTime.1 hStep) (hTime.tail hStep) hRest
    cases hLoaded : p.loaded <;> simpa [hLoaded] using hLater

end

/-- **Authorization and TLS move together**, while every newer generation that is built is
within its validity when TLS publishes it: after any polls the version of the snapshot is the
generation of the TLS configuration, both come from one manifest that was loaded, and a poll
that fails changes neither. -/
theorem static_authorization_in_step {first : TlsReloadGeneration τ}
    {polls : List (StaticPoll τ)} {s₀ : StaticEdge τ}
    (hBoot : bootstrap agentId tunnelId first = some s₀)
    (hTime : Guarded (step agentId tunnelId expiryWarning) InTime s₀ polls)
    (hRun : exec (step agentId tunnelId expiryWarning) s₀ polls = some s) :
    s.current.version.value = s.tls.state.active.generation ∧
      (∃ g ∈ first :: polls.filterMap StaticPoll.loaded,
        g.candidate = some s.tls.state.active ∧
        g.authorization agentId tunnelId = some s.current) ∧
      ∀ p s', s.InTime p → step agentId tunnelId expiryWarning s p = some s' →
        s'.tls.state.reloadFailed = true →
        s'.tls.state.active = s.tls.state.active ∧ s'.current = s.current := by
  obtain ⟨candidate, hCandidate, h⟩ := bind_eq_some_iff.mp hBoot
  obtain ⟨current, hAuthorization, ⟨⟩⟩ := bind_eq_some_iff.mp h
  have hStart : InStep agentId tunnelId ⟨.start candidate, current⟩ [first] :=
    ⟨first, List.mem_cons_self, hCandidate, hAuthorization⟩
  have hInStep := hStart.run hTime hRun
  refine ⟨hInStep.version_eq, hInStep, fun p s' hIn hStep hFailed => ?_⟩
  rcases hInStep.cases hIn hStep with hSame | ⟨hOk, -⟩
  · exact hSame
  · cases hOk.symm.trans hFailed

/-- Manifest `generation`, with a certificate valid from `notBefore` to 300. -/
def manifest (generation : Nat) (notBefore : Int) : TlsReloadGeneration Unit :=
  ⟨generation, .replicate 32 0, some ((), ⟨notBefore, 300⟩), some (.replicate 32 0)⟩

def agent : AgentId := ⟨[97], DurableId.valid_a⟩

def web : TunnelId := ⟨[119], DurableId.valid_w⟩

theorem static_authorization_in_step_second : ∃ s₀ s,
    bootstrap agent web (manifest 1 0) = some s₀ ∧
      exec (step agent web 0) s₀ [⟨some (manifest 2 0), 50, 50⟩] = some s ∧
      s.current.version.value = s.tls.state.active.generation := by
  obtain ⟨s₀, s, hBoot, hRun⟩ : ∃ s₀ s, bootstrap agent web (manifest 1 0) = some s₀ ∧
      exec (step agent web 0) s₀ [⟨some (manifest 2 0), 50, 50⟩] = some s := ⟨_, _, rfl, rfl⟩
  refine ⟨s₀, s, hBoot, hRun, (static_authorization_in_step hBoot ?_ hRun).1⟩
  constructor
  · rintro _ _ ⟨⟩ ⟨⟩ -
    decide
  · split <;> trivial

/-- The second manifest is not yet valid at 50: its snapshot is in force, its TLS identity not. -/
theorem snapshot_ahead_of_tls : ∃ s₀ s, bootstrap agent web (manifest 1 0) = some s₀ ∧
    exec (step agent web 0) s₀ [⟨some (manifest 2 200), 50, 50⟩] = some s ∧
    s.current.version.value = 2 ∧ s.tls.state.active.generation = 1 :=
  ⟨_, _, rfl, rfl, rfl, rfl⟩

end StaticEdge

end TunnelProxy.Edge
