import TunnelProxy.Control.Issuance

/-!
# Revocation is final

After `revoke_agent(a, t)` no credential that exists for `(a, t)` is good for anything again,
and nothing is authorized for `(a, t)` but from a bootstrap token that is created later. That
holds whatever the later operations are (`Ended`). No bootstrap token of `(a, t)` is accepted
again either, if created tokens have hashes of their own.

Renewal tokens are another matter: the Agent chooses them, and nothing keeps it from choosing
one that it had before the revocation. If the credential that named it was retired by then, it
is accepted again (`retired_token_renews`). Only in runs in which chosen tokens are new as well
(`freshTokens`) no token from before is accepted.

Tokens live in two tables and a retry is answered before its token is looked at, so these parts
name the hashes that existed at the revocation, and say that they are refused and that nothing
live was or will be issued for them (`Spent`).

* `Owned`, `Bound` — which hashes belong to one Agent and one tunnel
* `Ended.effect` — what every operation keeps after a revocation
* `Closed.effect` — what operations with new tokens keep
* `revocation_final` — no activation, no authorization and no issuance
-/

namespace TunnelProxy.Control.Enrollment

open Std Common Transition List

variable {sha256 : Hash} {since db db' : Db} {current current' : VersionedAuthorizationSnapshot}
  {op : Op} {reply : Outcome Reply} {agentId agentId' : AgentId} {tunnelId tunnelId' : TunnelId}
  {tokenHash : TokenHash} {candidate : IssuanceCandidate} {kind : PresentedTokenKind}
  {nowUnix : Nat} {agent' : AuthorizedAgent} {hashes : TokenHash → Prop}

/-! ## Tokens and their owners -/

/-- A bootstrap token that is created has a hash that no credential names for its renewal. -/
def freshCreated (db : Db) : Op → Bool
  | .createBootstrapToken tokenHash _ _ _ =>
    db.credentials.rows.all fun row => row.renewalTokenHash ≠ tokenHash
  | _ => true

/-- And a request brings a next token that no other token and no other request has. -/
def freshTokens (db : Db) (op : Op) : Bool :=
  freshCreated db op && match op with
    | .commitIssuance candidate _ =>
      (db.tokens.rows.all fun token => token.tokenHash ≠ candidate.nextTokenHash) &&
        db.credentials.rows.all fun row =>
          row.renewalTokenHash = candidate.nextTokenHash → row.requestId = candidate.requestId
    | _ => true

/-- A bootstrap token of the Agent's tunnel has this hash. -/
def BootstrapOf (db : Db) (tokenHash : TokenHash) (agentId : AgentId) (tunnelId : TunnelId) :
    Prop :=
  ∃ token ∈ db.tokens.rows, token.tokenHash = tokenHash ∧ token.agentId = agentId ∧
    token.tunnelId = tunnelId

/-- A bootstrap or renewal token of the Agent's tunnel has this hash. -/
def TokenOf (db : Db) (tokenHash : TokenHash) (agentId : AgentId) (tunnelId : TunnelId) : Prop :=
  BootstrapOf db tokenHash agentId tunnelId ∨
  ∃ issued ∈ db.issued, issued.renewalTokenHash = tokenHash ∧ issued.agentId = agentId ∧
    issued.tunnelId = tunnelId

instance : Decidable (BootstrapOf db tokenHash agentId tunnelId) :=
  inferInstanceAs (Decidable (∃ token ∈ db.tokens.rows, _))

instance : Decidable (TokenOf db tokenHash agentId tunnelId) :=
  inferInstanceAs (Decidable (_ ∨ ∃ issued ∈ db.issued, _))

/-- Nothing is taken back: credentials stay and tokens age. -/
structure Extends (db db' : Db) : Prop where
  issued : ∀ issued ∈ db.issued, issued ∈ db'.issued
  tokens : ∀ token ∈ db.tokens.rows, ∃ token' ∈ db'.tokens.rows, Ages token token'

theorem Effect.extends (h : Effect db current op reply db' current') : Extends db db' :=
  ⟨fun _ => h.issued_mono, fun _ => h.tokens_mono⟩

theorem Extends.refl (db : Db) : Extends db db :=
  ⟨fun _ => id, fun token hToken => ⟨token, hToken, .refl token⟩⟩

theorem Ages.trans {a b c : BootstrapToken} (h : Ages a b) (h' : Ages b c) : Ages a c :=
  ⟨h'.tokenHash.trans h.tokenHash, h'.agentId.trans h.agentId, h'.tunnelId.trans h.tunnelId,
    fun hUsed => h'.consumed (h.consumed hUsed), fun hUsed => h'.revoked (h.revoked hUsed)⟩

theorem Extends.trans (h : Extends since db) (h' : Extends db db') : Extends since db' := by
  refine ⟨fun issued hIssued => h'.issued issued (h.issued issued hIssued), ?_⟩
  intro token hToken
  obtain ⟨middle, hMiddle, hAges⟩ := h.tokens token hToken
  obtain ⟨last, hLast, hAges'⟩ := h'.tokens middle hMiddle
  exact ⟨last, hLast, hAges.trans hAges'⟩

theorem TokenOf.mono (h : TokenOf db tokenHash agentId tunnelId) (hExtends : Extends db db') :
    TokenOf db' tokenHash agentId tunnelId := by
  rcases h with ⟨token, hToken, hHash, hAgent, hTunnel⟩ | ⟨issued, hIssued, hOwner⟩
  · obtain ⟨token', hToken', hAges⟩ := hExtends.tokens token hToken
    exact .inl ⟨token', hToken', hAges.tokenHash.trans hHash, hAges.agentId.trans hAgent,
      hAges.tunnelId.trans hTunnel⟩
  · exact .inr ⟨issued, hExtends.issued issued hIssued, hOwner⟩

/-- A credential was issued for a token of its owner, and for a bootstrap token only if that
is its owner's. -/
structure Owned (db : Db) : Prop where
  auth : ∀ issued ∈ db.issued, TokenOf db issued.authTokenHash issued.agentId issued.tunnelId
  bootstrap : ∀ token ∈ db.tokens.rows, ∀ issued ∈ db.issued,
    issued.authTokenHash = token.tokenHash →
    issued.agentId = token.agentId ∧ issued.tunnelId = token.tunnelId

/-- No two tokens share a hash. -/
structure Bound (db : Db) : Prop where
  renewal : ∀ a ∈ db.issued, ∀ b ∈ db.issued, a.renewalTokenHash = b.renewalTokenHash → a = b
  apart : ∀ token ∈ db.tokens.rows, ∀ issued ∈ db.issued, token.tokenHash ≠ issued.renewalTokenHash

theorem owned_empty (hEmpty : db.credentials.rows = []) : Owned db := by
  constructor <;> simp [Db.issued, hEmpty]

theorem bound_empty (hEmpty : db.credentials.rows = []) : Bound db := by
  constructor <;> simp [Db.issued, hEmpty]

/-- A hash has one owner. -/
theorem Bound.owner (h : Bound db) (hOf : TokenOf db tokenHash agentId tunnelId)
    (hOf' : TokenOf db tokenHash agentId' tunnelId') :
    agentId' = agentId ∧ tunnelId' = tunnelId := by
  rcases hOf with ⟨token, hToken, rfl, rfl, rfl⟩ | ⟨issued, hIssued, rfl, rfl, rfl⟩
  · rcases hOf' with ⟨_, hOther, hHash, rfl, rfl⟩ | ⟨issued, hIssued, hHash, -⟩
    · rw [Table.eq_of_clash hOther hToken hHash]
      exact ⟨rfl, rfl⟩
    · exact absurd hHash.symm (h.apart token hToken issued hIssued)
  · rcases hOf' with ⟨token, hToken, hHash, -⟩ | ⟨other, hOther, hHash, rfl, rfl⟩
    · exact absurd hHash (h.apart token hToken issued hIssued)
    · rw [h.renewal other hOther issued hIssued hHash]
      exact ⟨rfl, rfl⟩

theorem freshCreated_of_freshTokens (h : freshTokens db op = true) : freshCreated db op = true :=
  (Bool.and_eq_true_iff.mp h).1

/-- No credential names the hash of a token that is created. -/
theorem ne_of_freshCreated {expires : Nat} {issued : IssuedCredential}
    (hFresh : freshCreated db (.createBootstrapToken tokenHash agentId tunnelId expires) = true)
    (hIssued : issued ∈ db.issued) : issued.renewalTokenHash ≠ tokenHash := by
  obtain ⟨row, hRow, rfl⟩ := mem_issued.mp hIssued
  simp only [freshCreated, all_eq_true, decide_eq_true_eq] at hFresh
  exact hFresh row hRow

/-- A request that gets a credential brings a next token that is nobody's. -/
theorem Issues.fresh (h : Issues db current candidate nowUnix kind db' current')
    (hFresh : freshTokens db (.commitIssuance candidate nowUnix) = true) :
    ¬TokenOf db candidate.nextTokenHash agentId tunnelId := by
  simp only [freshTokens, Bool.and_eq_true, all_eq_true, decide_eq_true_eq] at hFresh
  rintro (⟨token, hToken, hHash, -⟩ | ⟨issued, hIssued, hHash, -⟩)
  · exact hFresh.2.1 token hToken hHash
  · obtain ⟨row, hRow, rfl⟩ := mem_issued.mp hIssued
    exact (h.apart hRow).2 (hFresh.2.2 row hRow hHash)

/-- The token that a credential is issued for belongs to the credential's owner. -/
theorem Issues.tokenOf (h : Issues db current candidate nowUnix kind db' current') :
    TokenOf db candidate.presentedTokenHash candidate.agentId candidate.tunnelId := by
  have hAuth := h.authenticated
  cases kind with
  | bootstrap =>
    obtain ⟨token, hToken, hHash, hAgent, hTunnel, -⟩ := authenticateToken_bootstrap hAuth
    exact .inl ⟨token, hToken, hHash, hAgent, hTunnel⟩
  | renewal =>
    obtain ⟨-, -, row, hRow, -, hAgent, hTunnel, hHash, -⟩ := authenticateToken_renewal hAuth
    exact .inr ⟨row.toIssuedCredential, mem_issued.mpr ⟨row, hRow, rfl⟩, hHash, hAgent, hTunnel⟩

/-- A bootstrap token with the hash that was presented is the one that was found. -/
theorem Issues.owner {token : BootstrapToken}
    (h : Issues db current candidate nowUnix kind db' current') (hToken : token ∈ db.tokens.rows)
    (hHash : candidate.presentedTokenHash = token.tokenHash) :
    candidate.agentId = token.agentId ∧ candidate.tunnelId = token.tunnelId := by
  have hAuth := h.authenticated
  cases kind with
  | bootstrap =>
    obtain ⟨found, hFound, hSame, hAgent, hTunnel, -⟩ := authenticateToken_bootstrap hAuth
    rw [Table.eq_of_clash hFound hToken (hSame.trans hHash)] at hAgent hTunnel
    exact ⟨hAgent.symm, hTunnel.symm⟩
  | renewal => exact absurd hHash.symm ((authenticateToken_renewal hAuth).1 token hToken)

theorem Owned.effect (h : Owned db) (hFresh : freshCreated db op = true)
    (hEffect : Effect db current op reply db' current') : Owned db' := by
  constructor
  · intro issued hIssued
    rcases hEffect.issued_before hIssued with hOld | ⟨_, _, _, -, hIssues, rfl⟩
    · exact (h.auth issued hOld).mono hEffect.extends
    · exact hIssues.tokenOf.mono hEffect.extends
  · intro token hToken issued hIssued hHash
    rcases hEffect.token_before hToken with ⟨old, hOld, hAges⟩ | ⟨⟨_, rfl⟩, hApart⟩
    · rw [hAges.tokenHash] at hHash
      rw [hAges.agentId, hAges.tunnelId]
      rcases hEffect.issued_before hIssued with hBefore | ⟨_, _, _, -, hIssues, rfl⟩
      · exact h.bootstrap old hOld issued hBefore hHash
      · exact hIssues.owner hOld hHash
    · -- nothing was issued for a hash that no token had
      rcases hEffect.issued_before hIssued with hBefore | ⟨_, _, _, hOp, -⟩
      · rcases h.auth issued hBefore with ⟨old, hOld, hSame, -⟩ | ⟨other, hOther, hSame, -⟩
        · exact absurd (hSame.trans hHash) (hApart old hOld)
        · exact absurd (hSame.trans hHash) (ne_of_freshCreated hFresh hOther)
      · cases hOp

theorem Bound.effect (h : Bound db) (hFresh : freshTokens db op = true)
    (hEffect : Effect db current op reply db' current') : Bound db' := by
  constructor
  · rcases hEffect.issued_cases with hSame | ⟨candidate, _, _, rfl, hIssues⟩
    · exact hSame ▸ h.renewal
    -- a fresh renewal token belongs to no credential yet
    have hNew : ∀ issued ∈ db.issued, issued.renewalTokenHash ≠ candidate.nextTokenHash :=
      fun issued hIssued hHash => hIssues.fresh hFresh (.inr ⟨issued, hIssued, hHash, rfl, rfl⟩)
    intro a ha b hb hHash
    rcases hIssues.mem_issued_iff.mp ha with hOldA | rfl
    · rcases hIssues.mem_issued_iff.mp hb with hOldB | rfl
      · exact h.renewal a hOldA b hOldB hHash
      · exact absurd hHash (hNew a hOldA)
    · rcases hIssues.mem_issued_iff.mp hb with hOldB | rfl
      · exact absurd hHash.symm (hNew b hOldB)
      · rfl
  · intro token hToken issued hIssued hHash
    rcases hEffect.token_before hToken with ⟨old, hOld, hAges⟩ | ⟨⟨_, rfl⟩, -⟩
    · rw [hAges.tokenHash] at hHash
      rcases hEffect.issued_before hIssued with hBefore | ⟨_, _, _, rfl, hIssues, rfl⟩
      · exact h.apart old hOld issued hBefore hHash
      · exact hIssues.fresh hFresh (.inl ⟨old, hOld, hHash, rfl, rfl⟩)
    · rcases hEffect.issued_before hIssued with hBefore | ⟨_, _, _, hOp, -⟩
      · exact ne_of_freshCreated (freshCreated_of_freshTokens hFresh) hBefore hHash.symm
      · cases hOp

/-! ## After a revocation -/

/-- A credential of the Agent's tunnel. -/
def IssuedCredential.IsOf (issued : IssuedCredential) (agentId : AgentId) (tunnelId : TunnelId) :
    Prop :=
  issued.agentId = agentId ∧ issued.tunnelId = tunnelId

/-- A bootstrap token of the Agent's tunnel, created after `since`, was used. -/
def Readmitted (since db : Db) (agentId : AgentId) (tunnelId : TunnelId) : Prop :=
  ∃ issued ∈ db.issued, issued ∉ since.issued ∧ issued.previousFingerprint = none ∧
    issued.agentId = agentId ∧ issued.tunnelId = tunnelId ∧
    ∃ token ∈ db.tokens.rows, token.tokenHash = issued.authTokenHash ∧
      token.agentId = agentId ∧ token.tunnelId = tunnelId ∧
      ∀ old ∈ since.tokens.rows, old.tokenHash ≠ token.tokenHash

/-- What is left of the tokens and credentials that the Agent's tunnel had in `since`: they
are there, and none of them is good for anything. What is authorized has a credential, and a
newer credential goes back to a newer token. -/
structure Ended (since : Db) (agentId : AgentId) (tunnelId : TunnelId) (db : Db)
    (current : VersionedAuthorizationSnapshot) : Prop where
  later : Extends since db
  revoked : ∀ token ∈ db.tokens.rows, token.agentId = agentId → token.tunnelId = tunnelId →
    (∃ old ∈ since.tokens.rows, old.tokenHash = token.tokenHash) → token.revoked = true
  dead : ∀ row ∈ db.credentials.rows, row.toIssuedCredential ∈ since.issued →
    row.toIssuedCredential.IsOf agentId tunnelId → ¬row.state.Live
  authorized : ∀ (certificate : CertificateFingerprint) (agent : AuthorizedAgent),
    current.snapshot.agents[certificate]? = some agent → agent.agentId = agentId →
    agent.tunnels[tunnelId]? = some .enabled →
    ∃ issued ∈ db.issued, issued.fingerprint = certificate ∧ issued.IsOf agentId tunnelId
  rooted : ∀ issued ∈ db.issued, issued ∉ since.issued → issued.IsOf agentId tunnelId →
    Readmitted since db agentId tunnelId

/-- Tokens with these hashes are refused, and no credential that was issued for one is live, so
that no retry is answered. -/
structure Spent (hashes : TokenHash → Prop) (db : Db) : Prop where
  refused : ∀ tokenHash, hashes tokenHash → ∀ agentId tunnelId nowUnix kind,
    authenticateToken db tokenHash agentId tunnelId nowUnix ≠ .ok kind
  retries : ∀ row ∈ db.credentials.rows, hashes row.authTokenHash → ¬row.state.Live

/-- No hash of a token that the Agent's tunnel had in `since` is that of a bootstrap token that
was not revoked, or named by a credential that is live. -/
structure Closed (since : Db) (agentId : AgentId) (tunnelId : TunnelId) (db : Db) : Prop where
  tokens : ∀ token ∈ db.tokens.rows, TokenOf since token.tokenHash agentId tunnelId →
    token.revoked = true
  renewals : ∀ row ∈ db.credentials.rows, TokenOf since row.renewalTokenHash agentId tunnelId →
    ¬row.state.Live

/-- A tunnel that an Agent has without `tunnelId'` it had before. -/
theorem tunnels_of_withoutTunnel {agent : AuthorizedAgent} {status : TunnelStatus}
    (h : withoutTunnel agentId' tunnelId' agent = some agent')
    (hTunnel : agent'.tunnels[tunnelId]? = some status) :
    agent'.agentId = agent.agentId ∧ agent.tunnels[tunnelId]? = some status ∧
      (agent.agentId = agentId' → tunnelId ≠ tunnelId') := by
  unfold withoutTunnel at h
  by_cases hAgent : agent.agentId = agentId'
  · simp only [hAgent, if_true] at h
    split_ifs at h
    cases h
    simp only [ExtTreeMap.getElem?_filter', Option.filter_eq_some_iff, decide_eq_true_eq] at hTunnel
    exact ⟨hAgent.symm, hTunnel.1, fun _ => hTunnel.2⟩
  · simp only [hAgent, if_false] at h
    split_ifs at h
    cases h
    exact ⟨rfl, hTunnel, fun hSame => absurd hSame hAgent⟩

theorem Revokes.revoked {token : BootstrapToken}
    (h : Revokes db current agentId tunnelId nowUnix db' current')
    (hToken : token ∈ db'.tokens.rows)
    (hAgent : token.agentId = agentId) (hTunnel : token.tunnelId = tunnelId) :
    token.revoked = true := by
  obtain ⟨_, _, rfl⟩ := mem_map.mp (h.tokens ▸ hToken)
  unfold revokeToken at hAgent hTunnel ⊢
  split_ifs at hAgent hTunnel ⊢ with hOf
  · rfl
  · exact absurd ⟨hAgent, hTunnel⟩ hOf

/-- Right after a revocation. -/
theorem Revokes.ended (h : Revokes db current agentId tunnelId nowUnix db' current') :
    Ended db' agentId tunnelId db' current' where
  later := .refl db'
  revoked := fun _ hToken hAgent hTunnel _ => h.revoked hToken hAgent hTunnel
  dead := fun _ hRow _ hOwner => h.dead hRow hOwner.1 hOwner.2
  authorized := by
    intro _ _ hAgent' hId hTunnel
    rw [h.agents, Option.bind_eq_some_iff] at hAgent'
    obtain ⟨_, -, hWithout⟩ := hAgent'
    obtain ⟨hSame, -, hNe⟩ := tunnels_of_withoutTunnel hWithout hTunnel
    exact absurd rfl (hNe (hSame ▸ hId))
  rooted := fun _ hIn hOut => absurd hIn hOut

/-- The hashes belong to the Agent's tunnel alone, and its tokens and credentials are gone. -/
theorem Revokes.closed (h : Revokes db current agentId tunnelId nowUnix db' current')
    (hBound : Bound db') : Closed db' agentId tunnelId db' := by
  constructor
  · intro token hToken hOf
    have hOwner := hBound.owner hOf (.inl ⟨token, hToken, rfl, rfl, rfl⟩)
    exact h.revoked hToken hOwner.1 hOwner.2
  · intro row hRow hOf
    have hOwner := hBound.owner hOf (.inr ⟨_, mem_issued.mpr ⟨row, hRow, rfl⟩, rfl, rfl, rfl⟩)
    exact h.dead hRow hOwner.1 hOwner.2

/-- What is authorized was authorized before, or was issued. -/
theorem Effect.authorized_cases {certificate : CertificateFingerprint}
    (h : Effect db current op reply db' current')
    (hAgent : current'.snapshot.agents[certificate]? = some agent')
    (hTunnel : agent'.tunnels[tunnelId]? = some .enabled) :
    (∃ agent, current.snapshot.agents[certificate]? = some agent ∧
      agent.agentId = agent'.agentId ∧ agent.tunnels[tunnelId]? = some .enabled) ∨
    ∃ issued ∈ db'.issued, issued.fingerprint = certificate ∧
      issued.IsOf agent'.agentId tunnelId := by
  have hKept : ∀ {keep : Prop} [Decidable keep],
      (if keep then current.snapshot.agents[certificate]? else none) = some agent' →
      ∃ agent, current.snapshot.agents[certificate]? = some agent ∧
        agent.agentId = agent'.agentId ∧ agent.tunnels[tunnelId]? = some .enabled := by
    intro _ _ hKept
    split_ifs at hKept
    exact ⟨agent', hKept, rfl, hTunnel⟩
  cases h with
  | unchanged | created => exact .inl ⟨agent', hAgent, rfl, hTunnel⟩
  | @issued candidate nowUnix kind _ _ hIssues =>
    rw [hIssues.agents, ExtTreeMap.getElem?_insert] at hAgent
    split_ifs at hAgent with hSame
    · obtain rfl := Option.some.inj hAgent
      refine .inr ⟨(candidate.pendingRow current'.version kind).toIssuedCredential, ?_,
        Std.compare_eq_iff_eq.mp hSame, rfl, ?_⟩
      · simp [hIssues.issued]
      · simp only [soleAgent, ExtTreeMap.getElem?_insert, Std.compare_eq_iff_eq,
          ExtTreeMap.getElem?_empty] at hTunnel
        split_ifs at hTunnel with hId
        exact hId
    · exact .inl ⟨agent', hAgent, rfl, hTunnel⟩
  | activated hActivates =>
    rw [hActivates.agents] at hAgent
    exact .inl (hKept hAgent)
  | overdue _ hExpires | reconciled hExpires =>
    rw [hExpires.agents] at hAgent
    exact .inl (hKept hAgent)
  | revoked hRevokes =>
    rw [hRevokes.agents, Option.bind_eq_some_iff] at hAgent
    obtain ⟨agent, hBefore, hWithout⟩ := hAgent
    obtain ⟨hSame, hStatus, -⟩ := tunnels_of_withoutTunnel hWithout hTunnel
    exact .inl ⟨agent, hBefore, hSame.symm, hStatus⟩

/-- A bootstrap token from before the revocation is there and revoked. -/
theorem Ended.refused (h : Ended since agentId tunnelId db current)
    (hOf : BootstrapOf since tokenHash agentId tunnelId) :
    authenticateToken db tokenHash agentId' tunnelId' nowUnix ≠ .ok kind := by
  obtain ⟨old, hOld, rfl, rfl, rfl⟩ := hOf
  obtain ⟨token, hToken, hAges⟩ := h.later.tokens old hOld
  intro hAuth
  cases kind with
  | bootstrap =>
    obtain ⟨found, hFound, hSame, -, -, hValid, -⟩ := authenticateToken_bootstrap hAuth
    obtain rfl := Table.eq_of_clash hFound hToken (hSame.trans hAges.tokenHash.symm)
    cases hValid.symm.trans
      (h.revoked found hToken hAges.agentId hAges.tunnelId ⟨old, hOld, hAges.tokenHash.symm⟩)
  | renewal => exact (authenticateToken_renewal hAuth).1 token hToken hAges.tokenHash

/-- No token from before the revocation authenticates. -/
theorem Closed.refused (h : Closed since agentId tunnelId db)
    (hOf : TokenOf since tokenHash agentId tunnelId) :
    authenticateToken db tokenHash agentId' tunnelId' nowUnix ≠ .ok kind := by
  intro hAuth
  cases kind with
  | bootstrap =>
    obtain ⟨token, hToken, rfl, -, -, hValid, -⟩ := authenticateToken_bootstrap hAuth
    rw [h.tokens token hToken hOf] at hValid
    cases hValid
  | renewal =>
    obtain ⟨-, -, row, hRow, -, -, -, rfl, hActive⟩ := authenticateToken_renewal hAuth
    exact h.renewals row hRow hOf (.inr hActive)

/-- Nothing is issued for a token that is refused. -/
theorem Spent.retries_effect {row : Credential} (h : Spent hashes db)
    (hEffect : Effect db current op reply db' current') (hRow : row ∈ db'.credentials.rows)
    (hHash : hashes row.authTokenHash) : ¬row.state.Live := by
  intro hLive
  rcases hEffect.live_cases hRow hLive with ⟨old, hOld, hSame, hOldLive⟩ |
    ⟨candidate, nowUnix, kind, rfl, hIssues, rfl⟩
  · rw [hSame] at hHash
    exact h.retries old hOld hHash hOldLive
  · exact h.refused _ hHash _ _ _ _ hIssues.authenticated

theorem Readmitted.mono (h : Readmitted since db agentId tunnelId) (hExtends : Extends db db') :
    Readmitted since db' agentId tunnelId := by
  obtain ⟨issued, hIssued, hNew, hRoot, hAgent, hTunnel, token, hToken, hHash, hTokenAgent,
    hTokenTunnel, hLater⟩ := h
  obtain ⟨token', hToken', hAges⟩ := hExtends.tokens token hToken
  refine ⟨issued, hExtends.issued issued hIssued, hNew, hRoot, hAgent, hTunnel, token', hToken',
    hAges.tokenHash.trans hHash, hAges.agentId.trans hTokenAgent,
    hAges.tunnelId.trans hTokenTunnel, fun old hOld => ?_⟩
  rw [hAges.tokenHash]
  exact hLater old hOld

/-- A credential that is issued is none of those from before. -/
theorem Issues.not_mem (h : Issues db current candidate nowUnix kind db' current')
    (hLater : Extends since db) :
    (candidate.pendingRow current'.version kind).toIssuedCredential ∉ since.issued := by
  intro hOld
  obtain ⟨_, hRow, hSame⟩ := mem_issued.mp (hLater.issued _ hOld)
  exact (h.apart hRow).1 (congrArg IssuedCredential.fingerprint hSame)

/-- A credential that is issued after the revocation goes back to a newer token. -/
theorem Ended.issues (h : Ended since agentId tunnelId db current)
    (hIssues : Issues db current candidate nowUnix kind db' current') (hExtends : Extends db db')
    (hAgent : candidate.agentId = agentId) (hTunnel : candidate.tunnelId = tunnelId) :
    Readmitted since db' agentId tunnelId := by
  have hAuth := hIssues.authenticated
  cases kind with
  | bootstrap =>
    obtain ⟨token, hToken, hHash, hTokenAgent, hTokenTunnel, hValid, -⟩ :=
      authenticateToken_bootstrap hAuth
    obtain ⟨token', hToken', hAges⟩ := hExtends.tokens token hToken
    refine ⟨_, by simp [hIssues.issued], hIssues.not_mem h.later, rfl, hAgent, hTunnel, token',
      hToken', hAges.tokenHash.trans hHash, hAges.agentId.trans (hTokenAgent.trans hAgent),
      hAges.tunnelId.trans (hTokenTunnel.trans hTunnel), fun old hOld hSame => ?_⟩
    -- a token from before the revocation would have been revoked by it
    have hRevoked := h.revoked token hToken (hTokenAgent.trans hAgent)
      (hTokenTunnel.trans hTunnel) ⟨old, hOld, hSame.trans hAges.tokenHash⟩
    cases hValid.symm.trans hRevoked
  | renewal =>
    obtain ⟨-, -, row, hRow, -, hRowAgent, hRowTunnel, -, hActive⟩ :=
      authenticateToken_renewal hAuth
    have hMem := mem_issued.mpr ⟨row, hRow, rfl⟩
    have hOwner : row.toIssuedCredential.IsOf agentId tunnelId :=
      ⟨hRowAgent.trans hAgent, hRowTunnel.trans hTunnel⟩
    have hNew : row.toIssuedCredential ∉ since.issued := fun hOld =>
      h.dead row hRow hOld hOwner (.inr hActive)
    exact (h.rooted _ hMem hNew hOwner).mono hExtends

/-- **Step lemma**, for every operation. -/
theorem Ended.effect (h : Ended since agentId tunnelId db current)
    (hEffect : Effect db current op reply db' current') :
    Ended since agentId tunnelId db' current' := by
  have hExtends := hEffect.extends
  refine ⟨h.later.trans hExtends, ?_, ?_, ?_, ?_⟩
  · intro token hToken hAgent hTunnel hOld
    rcases hEffect.token_before hToken with ⟨before, hBefore, hAges⟩ | ⟨-, hApart⟩
    · rw [hAges.tokenHash] at hOld
      exact hAges.revoked (h.revoked before hBefore (hAges.agentId.symm.trans hAgent)
        (hAges.tunnelId.symm.trans hTunnel) hOld)
    · -- the hash of a bootstrap token is the key of its table
      obtain ⟨old, hIn, hSame⟩ := hOld
      obtain ⟨aged, hAged, hAge⟩ := h.later.tokens old hIn
      exact absurd (hAge.tokenHash.trans hSame) (hApart aged hAged)
  · intro _ hRow hOld hOwner hLive
    rcases hEffect.live_cases hRow hLive with ⟨before, hBefore, hSame, hLiveBefore⟩ |
      ⟨candidate, nowUnix, kind, rfl, hIssues, rfl⟩
    · rw [hSame] at hOld hOwner
      exact h.dead before hBefore hOld hOwner hLiveBefore
    · exact hIssues.not_mem h.later hOld
  · intro certificate _ hAgent' hId hTunnel
    rcases hEffect.authorized_cases hAgent' hTunnel with ⟨agent, hAgent, hSame, hStatus⟩ |
      ⟨issued, hIssued, hCertificate, hOwner⟩
    · obtain ⟨issued, hIssued, hRest⟩ :=
        h.authorized certificate agent hAgent (hSame.trans hId) hStatus
      exact ⟨issued, hExtends.issued issued hIssued, hRest⟩
    · exact ⟨issued, hIssued, hCertificate, hId ▸ hOwner⟩
  · intro issued hIssued hNew hOwner
    rcases hEffect.issued_before hIssued with hOld | ⟨_, _, _, -, hIssues, rfl⟩
    · exact (h.rooted issued hOld hNew hOwner).mono hExtends
    · exact h.issues hIssues hExtends hOwner.1 hOwner.2

/-- **Step lemma**, for operations whose tokens have new hashes. -/
theorem Closed.effect (h : Closed since agentId tunnelId db) (hLater : Extends since db)
    (hFresh : freshTokens db op = true) (hEffect : Effect db current op reply db' current') :
    Closed since agentId tunnelId db' := by
  constructor
  · intro token hToken hOf
    rcases hEffect.token_before hToken with ⟨old, hOld, hAges⟩ | ⟨⟨_, rfl⟩, hApart⟩
    · rw [hAges.tokenHash] at hOf
      exact hAges.revoked (h.tokens old hOld hOf)
    · -- a hash that was known before the revocation is not given to a new token
      rcases hOf.mono hLater with ⟨old, hOld, hHash, -⟩ | ⟨_, hIssued, hHash, -⟩
      · exact absurd hHash (hApart old hOld)
      · exact absurd hHash (ne_of_freshCreated (freshCreated_of_freshTokens hFresh) hIssued)
  · intro _ hRow hOf hLive
    rcases hEffect.live_cases hRow hLive with ⟨old, hOld, hSame, hOldLive⟩ |
      ⟨candidate, nowUnix, kind, rfl, hIssues, rfl⟩
    · rw [hSame] at hOf
      exact h.renewals old hOld hOf hOldLive
    · exact hIssues.fresh hFresh (hOf.mono hLater)

/-! ## Every run -/

/-- A database after a revocation in `since`. -/
def AfterRevocation (sha256 : Hash) (since : Db) (agentId : AgentId) (tunnelId : TunnelId)
    (db : Db) : Prop :=
  ∃ current, loadSnapshot sha256 db = .ok current ∧ Granted db current ∧
    Ended since agentId tunnelId db current

/-- A successful revocation, in the state it leaves. -/
theorem afterRevocation_revoke {reply : Reply} (h : Reached sha256 db)
    (hRevoke : run sha256 db (.revokeAgent agentId tunnelId nowUnix) = (.ok reply, db')) :
    AfterRevocation sha256 db' agentId tunnelId db' ∧ ∃ current current',
      Revokes db current agentId tunnelId nowUnix db' current' := by
  have hCases :
      (∃ error, revokeAgent sha256 db agentId tunnelId nowUnix = (.error error, db)) ∨ _ :=
    revokeAgent_cases
  simp only [run] at hRevoke
  rcases hCases with ⟨_, hFailed⟩ |
    ⟨outcome, after, current, current', hDone, hLoad, hLoad', -, hRevokes⟩
  · rw [hFailed] at hRevoke
    cases hRevoke
  · rw [hDone] at hRevoke
    cases hRevoke
    have hEffect : Effect db current (.revokeAgent agentId tunnelId nowUnix)
        (.ok (.mutated outcome))
        _ current' := .revoked hRevokes
    have hGranted : Granted db current := by
      rcases h with ⟨_, hLoaded, hGranted⟩ | ⟨hUnloaded, -⟩
      · exact Except.ok.inj (hLoaded.symm.trans hLoad) ▸ hGranted
      · exact absurd hLoad (hUnloaded current)
    exact ⟨⟨current', hLoad', hGranted.effect hEffect, hRevokes.ended⟩, current, current', hRevokes⟩

theorem AfterRevocation.step (h : AfterRevocation sha256 since agentId tunnelId db)
    (hStep : step sha256 db op = some db') :
    AfterRevocation sha256 since agentId tunnelId db' ∧ Extends since db ∧
      ∃ current reply current', Effect db current op reply db' current' := by
  obtain ⟨current, hLoad, hGranted, hEnded⟩ := h
  obtain ⟨current', hLoad', hEffect⟩ := run_effect hLoad op
  cases hStep
  exact ⟨⟨current', hLoad', hGranted.effect hEffect, hEnded.effect hEffect⟩, hEnded.later,
    current, _, current', hEffect⟩

/-- The request gets neither an answer to a retry nor a credential. -/
def Refuses (sha256 : Hash) (db : Db) (request : IssuanceRequest) (nowUnix : Nat) : Prop :=
  (∃ error, preflightIssuance db request nowUnix = .error error) ∧
    ∀ candidate : IssuanceCandidate, candidate.toIssuanceRequest = request →
      ∃ error, (run sha256 db (.commitIssuance candidate nowUnix)).1 = .error error

/-- A transaction that commits nothing but failures fails. -/
theorem transact_fails {α : Type} {body : Outcome (Outcome α × Db)} {reply : α → Reply}
    (hBody : ∀ result, body = .ok result → ∃ error, result.1 = .error error) :
    ∃ error, ((transact db body).map (·.map reply) id).1 = .error error := by
  refine transact_elim (motive := fun result : Outcome α × Db =>
    ∃ error, (result.map (·.map reply) id).1 = .error error) (fun error => ⟨error, rfl⟩)
    fun result hResult => ?_
  obtain ⟨error, hError⟩ := hBody result hResult
  exact ⟨error, by rw [Prod.map_fst, hError]; rfl⟩

/-- Nothing is issued for a token that is spent, and no retry is answered. -/
theorem Spent.refuses {request : IssuanceRequest}
    (h : Spent hashes db) (hHash : hashes request.presentedTokenHash) :
    Refuses sha256 db request nowUnix := by
  -- a retry repeats the token of a live credential
  have hRetry : ∀ {existing issuance}, existing ∈ db.credentials.rows →
      retry existing request ≠ .ok issuance := by
    intro existing _ hMem hOk
    obtain ⟨hRepeats, hLive⟩ := retry_eq_ok hOk
    exact h.retries existing hMem (hRepeats.1 ▸ hHash) hLive
  constructor
  · cases hResult : preflightIssuance db request nowUnix with
    | error error => exact ⟨error, rfl⟩
    | ok _ =>
      obtain ⟨existing, hLoad, hRest⟩ := bind_eq_ok.mp hResult
      cases existing with
      | some =>
        obtain ⟨_, hOk, -⟩ := bind_eq_ok.mp hRest
        exact absurd hOk (hRetry (mem_of_loadIssuance hLoad))
      | none =>
        obtain ⟨_, hAuth, -⟩ := bind_eq_ok.mp hRest
        exact absurd hAuth (h.refused _ hHash _ _ _ _)
  · rintro candidate rfl
    simp only [run, commitIssuance]
    refine transact_fails fun result hBody => ?_
    split at hBody
    · cases hBody
    obtain ⟨existing, hLoad, hRest⟩ := bind_eq_ok.mp hBody
    cases existing with
    | some =>
      obtain ⟨_, hOk, -⟩ := bind_eq_ok.mp hRest
      exact absurd hOk (hRetry (mem_of_loadIssuance hLoad))
    | none =>
      obtain ⟨_, hIssue, -⟩ := bind_eq_ok.mp hRest
      obtain ⟨_, hAuth, -⟩ := bind_eq_ok.mp hIssue
      exact absurd hAuth (h.refused _ hHash _ _ _ _)

/-- A credential that is not live cannot be activated. -/
theorem activate_terminal {row : Credential} {requestId : EnrollmentRequestId}
    {renewalTokenHash : TokenHash} (hRow : row ∈ db.credentials.rows)
    (hTerminal : ¬row.state.Live) :
    ∃ error, (run sha256 db (.activate requestId renewalTokenHash row.fingerprint nowUnix)).1 =
        .error error := by
  simp only [run, activate]
  refine transact_fails fun result hBody => ?_
  split at hBody
  · cases hBody
  rename_i found hFind
  have hKeys := find?_some hFind
  simp only [decide_eq_true_eq] at hKeys
  obtain rfl := eq_of_fingerprint (mem_of_find?_eq_some hFind) hRow hKeys.2.1
  cases hState : found.state with
  | pending => exact absurd (.inl hState) hTerminal
  | active => exact absurd (.inr hState) hTerminal
  | _ =>
    rw [hState] at hBody
    cases hBody

/-- **Run lemma.** Tokens stay spent after the revocation, as long as operations keep what has
them refused. -/
theorem spent_run {Q : Db → Prop} {G : Db → Op → Prop}
    (hRefused : ∀ db current, Ended since agentId tunnelId db current → Q db → ∀ tokenHash,
      hashes tokenHash → ∀ agentId' tunnelId' nowUnix kind,
        authenticateToken db tokenHash agentId' tunnelId' nowUnix ≠ .ok kind)
    (hKeeps : ∀ db current op reply db' current', Extends since db → G db op → Q db →
      Effect db current op reply db' current' → Q db')
    (hAfter : AfterRevocation sha256 since agentId tunnelId db) (hQ : Q db)
    (hRetries : ∀ row ∈ db.credentials.rows, hashes row.authTokenHash → ¬row.state.Live)
    (hGuard : Guarded (step sha256) G db ops) (hRun : exec (step sha256) db ops = some db') :
    Spent hashes db' := by
  have hSpent : ∀ {db}, AfterRevocation sha256 since agentId tunnelId db → Q db →
      (∀ row ∈ db.credentials.rows, hashes row.authTokenHash → ¬row.state.Live) →
      Spent hashes db := by
    rintro db ⟨current, -, -, hEnded⟩ hQ hRetries
    exact ⟨hRefused db current hEnded hQ, hRetries⟩
  refine (exec_induction_guarded
    (P := fun db => AfterRevocation sha256 since agentId tunnelId db ∧ Q db ∧ Spent hashes db)
    (fun db op db' h hOp hStep => ?_) ⟨hAfter, hQ, hSpent hAfter hQ hRetries⟩ hGuard hRun).2.2
  obtain ⟨hAfter', hLater, current, reply, current', hEffect⟩ := h.1.step hStep
  have hQ' : Q db' := hKeeps db current op reply db' current' hLater hOp h.2.1 hEffect
  exact ⟨hAfter', hQ', hSpent hAfter' hQ' fun _ => h.2.2.retries_effect hEffect⟩

/-- **Revocation is final.** Take any run from an empty table of credentials in which
`revoke_agent` succeeds for an Agent and a tunnel, and any state after that. No credential
which the tunnel had at the revocation can be activated, and a certificate is authorized for it
only if a bootstrap token that was created for it after the revocation has been used. If
bootstrap tokens are created with hashes of their own, no preflight and no commit that presents
a bootstrap token which the tunnel had at the revocation succeeds; and if the tokens that
requests bring are new as well, none that presents any token which it had. -/
theorem revocation_final {db₀ db₁ db₂ : Db} {before later : List Op} {nowUnix : Nat}
    {reply : Reply} (hEmpty : db₀.credentials.rows = [])
    (hBefore : exec (step sha256) db₀ before = some db₁)
    (hRevoke : run sha256 db₁ (.revokeAgent agentId tunnelId nowUnix) = (.ok reply, db₂))
    (hLater : exec (step sha256) db₂ later = some db) :
    (∀ row ∈ db₂.credentials.rows, row.agentId = agentId → row.tunnelId = tunnelId →
      ∀ requestId renewalTokenHash now, ∃ error,
        (run sha256 db (.activate requestId renewalTokenHash row.fingerprint now)).1 =
          .error error) ∧
    (∃ current, loadSnapshot sha256 db = .ok current ∧
      ∀ certificate, current.snapshot.authorize certificate agentId tunnelId = .ok () →
        Readmitted db₂ db agentId tunnelId) ∧
    (Guarded (step sha256) (fun db op => freshCreated db op = true) db₀
        (before ++ .revokeAgent agentId tunnelId nowUnix :: later) →
      ∀ request now, BootstrapOf db₂ request.presentedTokenHash agentId tunnelId →
        Refuses sha256 db request now) ∧
    (Guarded (step sha256) (fun db op => freshTokens db op = true) db₀
        (before ++ .revokeAgent agentId tunnelId nowUnix :: later) →
      ∀ request now, TokenOf db₂ request.presentedTokenHash agentId tunnelId →
        Refuses sha256 db request now) := by
  have hReached : Reached sha256 db₁ :=
    (reached_run (P := fun _ => True) (fun _ _ => trivial) (fun _ _ _ _ _ _ _ _ _ _ => trivial)
      (reached_init hEmpty) trivial guarded_true hBefore).1
  obtain ⟨hAfter, _, _, hRevokes⟩ := afterRevocation_revoke hReached hRevoke
  -- the run up to the revocation and with it
  have hRun : exec (step sha256) db₀ (before ++ [.revokeAgent agentId tunnelId nowUnix]) =
      some db₂ := exec_append.mpr ⟨db₁, hBefore, by simp [exec, step, hRevoke]⟩
  rw [append_cons]
  obtain ⟨current, hLoad, hGranted, hEnded⟩ : AfterRevocation sha256 db₂ agentId tunnelId db :=
    exec_induction (fun _ _ _ h hStep => (h.step hStep).1) hAfter hLater
  refine ⟨?_, ⟨current, hLoad, ?_⟩, fun hFresh request now hOf => ?_,
    fun hFresh request now hOf => ?_⟩
  · intro row hRow hAgent hTunnel _ _ _
    obtain ⟨current₂, hLoad₂, hGranted₂, -⟩ := hAfter
    have hTerminal := hRevokes.dead hRow hAgent hTunnel
    exact activate_terminal (terminal_run ⟨current₂, hLoad₂, hGranted₂⟩ hRow hTerminal hLater)
      hTerminal
  · intro certificate hAuthorized
    obtain ⟨agent, hAgent, hId, hTunnel⟩ := AuthorizationSnapshot.authorize_eq_ok.mp hAuthorized
    obtain ⟨issued, hIssued, rfl, hOwner⟩ := hEnded.authorized certificate agent hAgent hId hTunnel
    refine hEnded.rooted issued hIssued (fun hOld => ?_) hOwner
    -- a credential from before the revocation has no grant
    obtain ⟨row, hRow, rfl⟩ := mem_issued.mp hIssued
    rw [hGranted.grant row hRow, if_neg (hEnded.dead row hRow hOld hOwner)] at hAgent
    cases hAgent
  · have hOwned : Owned db₂ :=
      (reached_run (fun _ => owned_empty)
        (fun _ _ _ _ _ _ hFresh _ hOwned => hOwned.effect hFresh)
        (reached_init hEmpty) (owned_empty hEmpty) hFresh.init hRun).2
    suffices hSpent : Spent (BootstrapOf db₂ · agentId tunnelId) db from hSpent.refuses hOf
    refine spent_run (Q := fun _ => True) (fun _ _ hEnded _ _ hOf _ _ _ _ => hEnded.refused hOf)
      (fun _ _ _ _ _ _ _ _ _ _ => trivial) hAfter trivial ?_ (hFresh.rest hRun) hLater
    rintro row hRow ⟨token, hToken, hHash, rfl, rfl⟩
    have hOwner := hOwned.bootstrap token hToken _ (mem_issued.mpr ⟨row, hRow, rfl⟩) hHash.symm
    exact hRevokes.dead hRow hOwner.1 hOwner.2
  · obtain ⟨hOwned, hBound⟩ : Owned db₂ ∧ Bound db₂ :=
      (reached_run (P := fun db => Owned db ∧ Bound db)
        (fun _ hEmpty => ⟨owned_empty hEmpty, bound_empty hEmpty⟩)
        (fun _ _ _ _ _ _ hFresh _ h hEffect =>
          ⟨h.1.effect (freshCreated_of_freshTokens hFresh) hEffect, h.2.effect hFresh hEffect⟩)
        (reached_init hEmpty) ⟨owned_empty hEmpty, bound_empty hEmpty⟩ hFresh.init hRun).2
    suffices hSpent : Spent (TokenOf db₂ · agentId tunnelId) db from hSpent.refuses hOf
    refine spent_run (Q := Closed db₂ agentId tunnelId)
      (fun _ _ _ hClosed _ hOf _ _ _ _ => hClosed.refused hOf)
      (fun _ _ _ _ _ _ hLater hFresh hClosed => hClosed.effect hLater hFresh)
      hAfter (hRevokes.closed hBound) ?_ (hFresh.rest hRun) hLater
    intro row hRow hOf
    have hOwner := hBound.owner hOf (hOwned.auth _ (mem_issued.mpr ⟨row, hRow, rfl⟩))
    exact hRevokes.dead hRow hOwner.1 hOwner.2

namespace EnrollmentExample

/-- The Agent's tunnel is revoked. -/
def revocation : Op := .revokeAgent EnrollmentExample.agentId web 15

/-- A new bootstrap token is created and used. -/
def readmission : List Op :=
  [.createBootstrapToken (filled 201) EnrollmentExample.agentId web 100,
    .commitIssuance (attempt 4 201) 16]

/-- A new bootstrap token is used for a credential that is to be renewed with token 101, which
the retired credential named. -/
def reuse : List Op :=
  [.createBootstrapToken (filled 201) EnrollmentExample.agentId web 100,
    .commitIssuance { attempt 4 201 with nextTokenHash := filled 101 } 16,
    .activate (filled 4) (filled 101) (filled 4) 17]

end EnrollmentExample

open EnrollmentExample in
/-- After a revocation the old renewal token and the old bootstrap token are refused, and the
certificate that is authorized comes from a new bootstrap token. -/
theorem revocation_final_readmission :
    ∃ db₁ db₂ db reply, exec (step digest) initial enrolled = some db₁ ∧
      run digest db₁ revocation = (.ok reply, db₂) ∧
      exec (step digest) db₂ readmission = some db ∧
      Refuses digest db (attempt 5 200).toIssuanceRequest 17 ∧
      Refuses digest db (attempt 5 101).toIssuanceRequest 17 ∧
      Readmitted db₂ db EnrollmentExample.agentId web := by
  obtain ⟨db₁, hdb₁, reply, hReply, hToken, hIssued, db, hdb, current, hLoad, hAdmits⟩ : ∃ db₁,
      exec (step digest) initial enrolled = some db₁ ∧
      ∃ reply, (run digest db₁ revocation).1 = .ok reply ∧
      BootstrapOf (run digest db₁ revocation).2 (filled 200) agentId web ∧
      TokenOf (run digest db₁ revocation).2 (filled 101) agentId web ∧
      ∃ db, exec (step digest) (run digest db₁ revocation).2 readmission = some db ∧
      ∃ current, loadSnapshot digest db = .ok current ∧
        current.snapshot.authorize (filled 4) agentId web = .ok () := by decide +kernel
  have hFresh : Guarded (step digest) (fun db op => freshTokens db op = true) initial
      (enrolled ++ revocation :: readmission) := by decide +kernel
  have hRevoke : run digest db₁ revocation = (.ok reply, (run digest db₁ revocation).2) :=
    Prod.ext hReply rfl
  obtain ⟨-, ⟨_, hLoad', hAuthorized⟩, hBootstrap, hRenewal⟩ :=
    revocation_final rfl hdb₁ hRevoke hdb
  cases hLoad.symm.trans hLoad'
  exact ⟨db₁, _, db, reply, hdb₁, hRevoke, hdb,
    hBootstrap (hFresh.mono fun _ _ => freshCreated_of_freshTokens) _ 17 hToken,
    hRenewal hFresh _ 17 hIssued, hAuthorized (filled 4) hAdmits⟩

open EnrollmentExample in
/-- Token 101 was named by a credential that has been retired. After the revocation the Agent is
admitted with a new bootstrap token and chooses token 101 again: a preflight and a commit that
present it succeed. -/
theorem retired_token_renews :
    ∃ db₁, exec (step digest) initial renewed = some db₁ ∧
      (run digest db₁ revocation).1.isOk ∧
      TokenOf (run digest db₁ revocation).2 (filled 101) EnrollmentExample.agentId web ∧
      ∃ db, exec (step digest) (run digest db₁ revocation).2 reuse = some db ∧
        (preflightIssuance db (attempt 5 101).toIssuanceRequest 18).isOk ∧
        (run digest db (.commitIssuance (attempt 5 101) 18)).1.isOk := by
  decide +kernel

end TunnelProxy.Control.Enrollment
