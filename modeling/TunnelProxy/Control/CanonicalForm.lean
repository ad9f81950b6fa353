import TunnelProxy.Control.SnapshotLimits

/-!
# The canonical form of a snapshot

What the encoding of a snapshot says, and how long it is. The encoder checks the size after
each identifier, and not after the count of the tunnels: a last certificate without a tunnel
takes two bytes that are never checked (`encoding_overlong`). An encoding is read back exactly
if it is within the limit, as every other one is, and in all of them the order of the grants
is forgotten (`encoding_exact`).

* `new_lookup`, `eq_iff_sameGrants` — a snapshot is what its grants grant, in any order
* `length_encodeGrants` — the last size check, and what it covers
-/

namespace TunnelProxy.Control

open Std Common BigEndian List AuthorizationSnapshot ExtTreeMap

/-! ## What grants grant -/

/-- Two lists grant the same certificates to the same Agents, with the same tunnels in the
same status. -/
structure SameGrants (grants grants' : List AgentGrant) : Prop where
  agents : ∀ certificate agentId,
    (∃ grant ∈ grants, grant.certificate = certificate ∧ grant.agentId = agentId) ↔
      ∃ grant ∈ grants', grant.certificate = certificate ∧ grant.agentId = agentId
  tunnels : ∀ certificate tunnel,
    (∃ grant ∈ grants, grant.certificate = certificate ∧ tunnel ∈ grant.tunnels) ↔
      ∃ grant ∈ grants', grant.certificate = certificate ∧ tunnel ∈ grant.tunnels

namespace AuthorizationSnapshot

variable {grants grants' : List AgentGrant} {snapshot snapshot' : AuthorizationSnapshot}
  {certificate : CertificateFingerprint} {agent : AuthorizedAgent} {grant : AgentGrant}

section

variable (h : new grants = .ok snapshot)
include h

/-- The entries of a snapshot are the grants it was built from. -/
theorem new_lookup : snapshot.agents[certificate]? = some agent ↔
      ∃ grant ∈ grants, grant.certificate = certificate ∧ authorizedAgent grant = .ok agent := by
  unfold new at h
  cases hAll : TreeMap.insertAll AgentGrant.certificate authorizedAgent
      (fun grant => .duplicateCertificate grant.certificate) ∅ grants with
  | error error => simp [hAll, Except.map] at h
  | ok agents =>
    rw [hAll] at h
    cases h
    simp [TreeMap.insertAll_lookup hAll]

omit h in
theorem authorizedAgent_lookup (h : authorizedAgent grant = .ok agent) :
    agent.agentId = grant.agentId ∧
      ∀ tunnel, agent.tunnels[tunnel.tunnelId]? = some tunnel.status ↔ tunnel ∈ grant.tunnels := by
  unfold authorizedAgent at h
  cases hAll : addTunnels grant.agentId grant.tunnels with
  | error => simp [hAll, Except.map] at h
  | ok _ =>
    rw [hAll] at h
    cases h
    refine ⟨rfl, fun tunnel => ?_⟩
    simp only [TreeMap.insertAll_lookup hAll, getElem?_empty, reduceCtorEq, or_false,
      Except.ok.injEq]
    constructor
    · rintro ⟨tunnel', hMem, _, _⟩
      obtain rfl : tunnel' = tunnel := by
        cases tunnel
        cases tunnel'
        simp_all
      exact hMem
    · exact fun hMem => ⟨tunnel, hMem, rfl, rfl⟩

/-- The pairs and triples that a list grants, read off the snapshot. -/
theorem exists_grant_iff {P : AgentGrant → Prop}
    {Q : AuthorizedAgent → Prop}
    (hIff : ∀ {grant agent}, authorizedAgent grant = .ok agent → (P grant ↔ Q agent)) :
    (∃ grant ∈ grants, grant.certificate = certificate ∧ P grant) ↔
      ∃ agent, snapshot.agents[certificate]? = some agent ∧ Q agent := by
  constructor
  · rintro ⟨grant, hMem, hCertificate, hP⟩
    obtain ⟨agent, hAgent⟩ : ∃ agent, authorizedAgent grant = .ok agent := by
      simp only [new, Except.map] at h
      split at h
      · cases h
      · rename_i hAll
        exact TreeMap.exists_value hAll hMem
    exact ⟨agent, (new_lookup h).mpr ⟨grant, hMem, hCertificate, hAgent⟩, (hIff hAgent).mp hP⟩
  · rintro ⟨_, hAgent, hQ⟩
    obtain ⟨grant, hMem, hCertificate, hGrant⟩ := (new_lookup h).mp hAgent
    exact ⟨grant, hMem, hCertificate, (hIff hGrant).mpr hQ⟩

theorem mem_agents_iff {agentId : AgentId} :
    (∃ grant ∈ grants, grant.certificate = certificate ∧ grant.agentId = agentId) ↔
      ∃ agent, snapshot.agents[certificate]? = some agent ∧ agent.agentId = agentId :=
  exists_grant_iff h fun hAgent => by rw [(authorizedAgent_lookup hAgent).1]

theorem mem_tunnels_iff {tunnel : TunnelGrant} :
    (∃ grant ∈ grants, grant.certificate = certificate ∧ tunnel ∈ grant.tunnels) ↔
      ∃ agent, snapshot.agents[certificate]? = some agent ∧
        agent.tunnels[tunnel.tunnelId]? = some tunnel.status :=
  exists_grant_iff h fun hAgent => ((authorizedAgent_lookup hAgent).2 tunnel).symm

/-- **A snapshot is what its grants grant**, in whatever order they were given. -/
theorem eq_iff_sameGrants (h' : new grants' = .ok snapshot') :
    snapshot = snapshot' ↔ SameGrants grants grants' := by
  constructor
  · rintro rfl
    exact ⟨fun _ _ => (mem_agents_iff h).trans (mem_agents_iff h').symm,
      fun _ _ => (mem_tunnels_iff h).trans (mem_tunnels_iff h').symm⟩
  · intro hSame
    have hAgents : ∀ (certificate : CertificateFingerprint) agentId,
        (∃ agent, snapshot.agents[certificate]? = some agent ∧ agent.agentId = agentId) ↔
          ∃ agent, snapshot'.agents[certificate]? = some agent ∧ agent.agentId = agentId :=
      fun certificate agentId => (mem_agents_iff h).symm.trans
        ((hSame.agents certificate agentId).trans (mem_agents_iff h'))
    have hTunnels : ∀ (certificate : CertificateFingerprint) (tunnel : TunnelGrant),
        (∃ agent, snapshot.agents[certificate]? = some agent ∧
            agent.tunnels[tunnel.tunnelId]? = some tunnel.status) ↔
          ∃ agent, snapshot'.agents[certificate]? = some agent ∧
            agent.tunnels[tunnel.tunnelId]? = some tunnel.status :=
      fun certificate tunnel => (mem_tunnels_iff h).symm.trans
        ((hSame.tunnels certificate tunnel).trans (mem_tunnels_iff h'))
    refine AuthorizationSnapshot.ext (ext_getElem? fun certificate => ?_)
    cases hAgent : snapshot.agents[certificate]? with
    | none =>
      refine (Option.eq_none_iff_forall_ne_some.mpr fun agent' hAgent' => ?_).symm
      obtain ⟨_, hSome, -⟩ := (hAgents certificate agent'.agentId).mpr ⟨agent', hAgent', rfl⟩
      cases hAgent.symm.trans hSome
    | some agent =>
      obtain ⟨agent', hAgent', _⟩ := (hAgents certificate agent.agentId).mp ⟨agent, hAgent, rfl⟩
      rw [hAgent']
      have hMap : agent.tunnels = agent'.tunnels := by
        refine ext_getElem? fun id => Option.ext fun status => ?_
        have hTunnel := hTunnels certificate ⟨id, status⟩
        simpa [hAgent, hAgent'] using hTunnel
      cases agent
      cases agent'
      simp_all

end

end AuthorizationSnapshot

/-! ## The length of an encoding -/

/-- The certificate that comes last, the one with the greatest fingerprint, has a tunnel. -/
def EndsWithTunnel (snapshot : AuthorizationSnapshot) : Prop :=
  ∀ grant ∈ snapshot.grants.getLast?, grant.tunnels ≠ []

variable {output bytes : List UInt8} {snapshot : AuthorizationSnapshot} {grants : List AgentGrant}

theorem length_encodeTunnels {tunnels : List TunnelGrant} (hSome : tunnels ≠ [])
    (h : encodeTunnels output tunnels = .ok bytes) : bytes.length ≤ maxSnapshotBytes := by
  induction tunnels generalizing output with
  | nil => exact absurd rfl hSome
  | cons _ rest ih =>
    obtain ⟨hSize, hRest⟩ := ensureEncodedSize_bind.mp h
    by_cases hEmpty : rest = []
    · subst hEmpty
      cases hRest
      exact hSize
    · exact ih hEmpty hRest

/-- The last tunnel of the last grant is followed by a size check. -/
theorem length_encodeGrants (hSome : grants ≠ [])
    (hLast : ∀ grant ∈ grants.getLast?, grant.tunnels ≠ [])
    (h : encodeGrants output grants = .ok bytes) : bytes.length ≤ maxSnapshotBytes := by
  induction grants generalizing output with
  | nil => exact absurd rfl hSome
  | cons grant rest ih =>
    obtain ⟨-, h⟩ := ensureEncodedSize_bind.mp h
    split_ifs at h
    · cases h
    obtain ⟨_, hMiddle, hRest⟩ := bind_eq_ok.mp h
    by_cases hEmpty : rest = []
    · subst hEmpty
      cases hRest
      exact length_encodeTunnels (hLast grant rfl) hMiddle
    · refine ih hEmpty (fun last hMem => hLast last ?_) hRest
      rwa [getLast?_cons_of_ne_nil hEmpty]

theorem length_encodeSnapshot (hLast : EndsWithTunnel snapshot)
    (h : encodeSnapshot snapshot = .ok bytes) : bytes.length ≤ maxSnapshotBytes := by
  by_cases hEmpty : snapshot.grants = []
  · have hBytes := (encodeSnapshot_eq_ok h).1
    rw [hBytes, snapshotBytes, hEmpty]
    decide
  · unfold encodeSnapshot at h
    dsimp only at h
    split_ifs at h
    exact length_encodeGrants hEmpty hLast h

/-- **The encoding is exact.** An encoding is within the size limit and read back as the
snapshot if and only if the sizes of the grants add up to at most the limit, as they do if
the last certificate has a tunnel. Whatever its length, another snapshot has this encoding if
and only if its grants grant the same, in any order. -/
theorem encoding_exact (h : encodeSnapshot snapshot = .ok bytes) :
    (bytes.length ≤ maxSnapshotBytes ∧ decodeSnapshot bytes = .ok snapshot ↔
      encodedSize snapshot ≤ maxSnapshotBytes) ∧
    (EndsWithTunnel snapshot → encodedSize snapshot ≤ maxSnapshotBytes) ∧
    ∀ grants grants' other, AuthorizationSnapshot.new grants = .ok snapshot →
      AuthorizationSnapshot.new grants' = .ok other →
      (encodeSnapshot other = .ok bytes ↔ SameGrants grants grants') := by
  obtain ⟨rfl, hCounts⟩ := encodeSnapshot_eq_ok h
  rw [← length_snapshotBytes]
  refine ⟨⟨And.left, fun hSize => ⟨hSize, decodeSnapshot_bytes hCounts hSize⟩⟩,
    fun hLast => length_encodeSnapshot hLast h, ?_⟩
  intro _ _ _ hNew hOther
  rw [← eq_iff_sameGrants hNew hOther]
  constructor
  · exact fun hSame => encodeSnapshot_injective h hSame
  · rintro rfl
    exact h

open FormExample in
/-- Two grants, given in either order, have one encoding, and it is read back. -/
theorem encoding_exact_swapped : ∃ bytes, encodeSnapshot both = .ok bytes ∧
      decodeSnapshot bytes = .ok both ∧
      ∀ other, AuthorizationSnapshot.new [second, first] = .ok other →
        encodeSnapshot other = .ok bytes := by
  have hNew : AuthorizationSnapshot.new [first, second] = .ok both := by
    rw [← grants_both]
    exact new_grants both
  have hEnds : EndsWithTunnel both := by
    intro _ hGrant
    rw [grants_both] at hGrant
    cases hGrant
    exact cons_ne_nil _ _
  obtain ⟨bytes, hBytes⟩ := encodes_both
  obtain ⟨hRead, hShort, hSame⟩ := encoding_exact hBytes
  refine ⟨bytes, hBytes, (hRead.mpr (hShort hEnds)).2, fun other hOther => ?_⟩
  refine (hSame _ _ other hNew hOther).mpr ?_
  exact ⟨fun _ _ => by simp [or_comm], fun _ _ => by simp [or_comm]⟩

/-! ## A last certificate without a tunnel -/

theorem encodeGrants_append {rest : List AgentGrant} (h : encodeGrants output grants = .ok bytes) :
    encodeGrants output (grants ++ rest) = encodeGrants bytes rest := by
  induction grants generalizing output with
  | nil =>
    cases h
    rfl
  | cons _ _ ih =>
    obtain ⟨hSize, h⟩ := ensureEncodedSize_bind.mp h
    split_ifs at h with hTunnels
    · cases h
    obtain ⟨_, hMiddle, hRest⟩ := bind_eq_ok.mp h
    rw [← ih hRest]
    simp only [cons_append, encodeGrants, ensureEncodedSize, if_neg (Nat.not_lt.mpr hSize),
      ok_bind, if_neg hTunnels, hMiddle]

/-- The count of no tunnels is not checked. -/
theorem encodeGrants_idle {grant : AgentGrant} (hIdle : grant.tunnels = [])
    (hSize : (output ++ grantBytes grant).length ≤ maxSnapshotBytes + 2) :
    encodeGrants output [grant] = .ok (output ++ grantBytes grant) := by
  have hBytes : output ++ grantBytes grant =
      pushId (output ++ grant.certificate.bytes) grant.agentId.text ++ be 2 0 := by
    rw [grantBytes, hIdle, pushId_append (output ++ _), pushId_append grant.certificate.bytes]
    simp only [append_assoc, length_nil, flatMap_nil, append_nil]
  rw [hBytes] at hSize ⊢
  rw [length_append, length_be] at hSize
  refine ensureEncodedSize_bind.mpr ⟨by omega, ?_⟩
  rw [hIdle]
  rfl

namespace LargeExample

open FormExample (certificate)

/-- One tunnel less. -/
@[irreducible]
def fewer : ExtTreeMap TunnelId TunnelStatus := tunnels.erase (tunnelId 0)

def thinner : AuthorizedAgent := ⟨agent.agentId, fewer⟩

/-- An Agent with an identifier of 33 bytes. -/
def idleId : AgentId := ⟨List.replicate 33 97, by decide⟩

/-- Three certificates with 3912 tunnels, one with 3911, and a last one with none. -/
def overlong : AuthorizationSnapshot :=
  ⟨ofList [(certificate 1, agent), (certificate 2, agent), (certificate 3, agent),
    (certificate 4, thinner), (certificate 5, ⟨idleId, ∅⟩)]⟩

/-- All but the last. -/
def front : List AgentGrant :=
  [(certificate 1, agent), (certificate 2, agent), (certificate 3, agent),
    (certificate 4, thinner)].map AuthorizationSnapshot.grantOf

def idle : AgentGrant := ⟨certificate 5, idleId, []⟩

theorem grants_overlong : overlong.grants = front ++ [idle] := rfl

theorem size_fewer : fewer.size = 3911 := by
  have hMem : tunnelId 0 ∈ tunnels := by
    unfold tunnels
    simp only [mem_ofList, List.contains_iff_mem, List.map_map]
    exact List.mem_map.mpr ⟨0, mem_range.mpr (by decide), rfl⟩
  rw [fewer, size_erase, if_pos (mem_iff_contains.mp hMem), size_tunnels]

theorem length_of_mem_fewer {id : TunnelId} (h : id ∈ fewer) : id.text.length = 64 := by
  unfold fewer at h
  exact length_of_mem_tunnels (mem_of_mem_erase h)

theorem grantSize_fewer :
    grantSize (AuthorizationSnapshot.grantOf (certificate 4, thinner)) = 262076 := by
  have hAgent : thinner.agentId.text.length = 3 := rfl
  have hSize : thinner.tunnels.size = 3911 := size_fewer
  rw [grantSize_of_length _ fun _ => length_of_mem_fewer, hAgent, hSize]

theorem sizes_front : front.map (fun grant => (grantBytes grant).length) =
    [262143, 262143, 262143, 262076] := by
  have hAgent : ∀ byte, (grantBytes (grantOf (certificate byte, agent))).length =
      262143 := fun byte => (length_grantBytes _).trans (grantSize_eq _)
  have hFewer : (grantBytes (grantOf (certificate 4, thinner))).length =
      262076 := (length_grantBytes _).trans grantSize_fewer
  rw [front, map_cons, map_cons, map_cons, map_cons, map_cons,
    map_cons, map_cons, map_cons, hAgent, hAgent, hAgent, hFewer]
  rfl

theorem length_front : (be 4 5 ++ front.flatMap grantBytes).length = 1048509 := by
  rw [length_append, length_be, length_flatMap, sizes_front]
  rfl

theorem encodes_overlong : encodeSnapshot overlong = .ok (snapshotBytes overlong) := by
  have hFront : encodeGrants (be 4 5) front = .ok (be 4 5 ++ front.flatMap grantBytes) := by
    refine encodeGrants_of_size ?_ ?_
    · rw [length_front]
      decide
    · have hAgent := fun certificate => (length_tunnels certificate).trans_le
        (by decide : 3912 ≤ maxTunnelsPerAgent)
      have hFewer : (grantOf
          (certificate 4, thinner)).tunnels.length ≤ maxTunnelsPerAgent := by
        have hSize : thinner.tunnels.size = 3911 := size_fewer
        rw [grantOf, length_map, length_toList, hSize]
        decide
      simp only [front, map_cons, map_nil, forall_mem_cons]
      exact ⟨hAgent _, hAgent _, hAgent _, hFewer, fun _ h => by cases h⟩
  have hIdle : (be 4 5 ++ front.flatMap grantBytes ++ grantBytes idle).length ≤
      maxSnapshotBytes + 2 := by
    rw [length_append, length_front, length_grantBytes]
    decide
  have hGrants : encodeGrants (be 4 5) (front ++ [idle]) =
      .ok (be 4 5 ++ front.flatMap grantBytes ++ grantBytes idle) :=
    (encodeGrants_append hFront).trans (encodeGrants_idle rfl hIdle)
  have hLength : (front ++ [idle]).length = 5 := rfl
  rw [encodeSnapshot, snapshotBytes, grants_overlong, hLength, if_neg (by decide), hGrants]
  simp

theorem length_overlong : (snapshotBytes overlong).length = maxSnapshotBytes + 2 := by
  have hBytes : snapshotBytes overlong = be 4 5 ++ front.flatMap grantBytes ++ grantBytes idle := by
    rw [snapshotBytes, grants_overlong]
    simp [front]
  rw [hBytes, length_append, length_front, length_grantBytes]
  decide

end LargeExample

/-- A snapshot whose last certificate has no tunnel is encoded in two bytes more than the
limit, and its encoding is refused. -/
theorem encoding_overlong : ∃ snapshot bytes, encodeSnapshot snapshot = .ok bytes ∧
      bytes.length = maxSnapshotBytes + 2 ∧
      decodeSnapshot bytes = .error (.tooLarge (maxSnapshotBytes + 2)) := by
  refine ⟨LargeExample.overlong, _, LargeExample.encodes_overlong, LargeExample.length_overlong, ?_⟩
  rw [decodeSnapshot, LargeExample.length_overlong, if_pos (Nat.lt_add_of_pos_right Nat.two_pos)]

end TunnelProxy.Control
