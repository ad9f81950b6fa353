import TunnelProxy.Agent.Rotation
import TunnelProxy.Control.Answers

/-!
# What the repository knows of an Agent's requests

The requests that an Agent has made up, and their rows. A request has at most one row, with
the values that the Agent drew; nobody else has used them, and no row of another one follows
a row of this Agent (`Ledger`). The files of the Agent say more (`Agrees`): a row that is
pending belongs to the request in the journal, and once an activation has committed there is
an active row that either the journal or the token file leads to.

* `Ledger.run`, `Agrees.run` — both are kept by every operation that uses the values drawn by
  the Agent only for its own requests
* `Grows` — what a waiting Agent can rely on meanwhile
-/

namespace TunnelProxy.Agent

open Common Control Control.Enrollment Rotation List

variable {sha256 : Hash} {config : AgentEnrollmentConfig} {drawn : List PendingEnrollment}
  {db db' : Db} {current current' : VersionedAuthorizationSnapshot} {op : Op}
  {reply : Outcome Reply} {pending : PendingEnrollment} {state : CredentialState}
  {fingerprint : CertificateFingerprint}

/-- The row of the request is in the state. -/
def PendingEnrollment.Has (pending : PendingEnrollment) (db : Db) (state : CredentialState) :
    Prop :=
  ∃ row ∈ db.credentials.rows, row.requestId = pending.requestId ∧ row.state = state

/-- The request has a row. -/
def PendingEnrollment.Issued (pending : PendingEnrollment) (db : Db) : Prop :=
  ∃ issued ∈ db.issued, issued.requestId = pending.requestId

theorem PendingEnrollment.Has.issued (h : pending.Has db state) : pending.Issued db := by
  obtain ⟨row, hRow, hId, -⟩ := h
  exact ⟨row.toIssuedCredential, mem_issued.mpr ⟨row, hRow, rfl⟩, hId⟩

/-- A row is in one state. -/
theorem PendingEnrollment.Has.state_eq {state' : CredentialState} (h : pending.Has db state)
    (h' : pending.Has db state') : state = state' := by
  obtain ⟨row, hRow, hId, rfl⟩ := h
  obtain ⟨row', hRow', hId', rfl⟩ := h'
  obtain rfl : row = row' := Table.eq_of_clash hRow hRow' (.inr (hId.trans hId'.symm))
  rfl

/-! ## The values that the Agent drew -/

/-- The candidate is for the request. -/
structure Asks (sha256 : Hash) (config : AgentEnrollmentConfig) (candidate : IssuanceCandidate)
    (pending : PendingEnrollment) : Prop where
  requestId : candidate.requestId = pending.requestId
  nextTokenHash : candidate.nextTokenHash = tokenHash sha256 pending.nextToken
  csrDigest : candidate.csrDigest = sha256 pending.csrDer
  agentId : candidate.agentId = config.agentId
  tunnelId : candidate.tunnelId = config.tunnelId

/-- The operation uses the values for requests of the Agent only. -/
def Consistent (sha256 : Hash) (config : AgentEnrollmentConfig) (drawn : List PendingEnrollment) :
    Op → Prop
  | .createBootstrapToken hash _ _ _ => ∀ p ∈ drawn, tokenHash sha256 p.nextToken ≠ hash
  | .commitIssuance candidate _ => (∃ p ∈ drawn, Asks sha256 config candidate p) ∨
      ∀ p ∈ drawn, p.requestId ≠ candidate.requestId ∧
        tokenHash sha256 p.nextToken ≠ candidate.nextTokenHash ∧
        tokenHash sha256 p.nextToken ≠ candidate.presentedTokenHash
  | _ => True

structure Ledger (sha256 : Hash) (config : AgentEnrollmentConfig)
    (drawn : List PendingEnrollment) (db : Db) : Prop where
  reached : Reached sha256 db
  booked : Booked db
  distinct : ∀ p ∈ drawn, ∀ q ∈ drawn, p.requestId = q.requestId ∨
    tokenHash sha256 p.nextToken = tokenHash sha256 q.nextToken → p = q
  columns : ∀ issued ∈ db.issued, ∀ p ∈ drawn, issued.requestId = p.requestId →
    issued.renewalTokenHash = tokenHash sha256 p.nextToken ∧
      issued.csrDigest = sha256 p.csrDer ∧ issued.agentId = config.agentId ∧
      issued.tunnelId = config.tunnelId
  renewal : ∀ issued ∈ db.issued, ∀ p ∈ drawn,
    issued.renewalTokenHash = tokenHash sha256 p.nextToken → issued.requestId = p.requestId
  lineage : ∀ issued ∈ db.issued, ∀ old ∈ db.issued,
    issued.previousFingerprint = some old.fingerprint → ∀ p ∈ drawn,
      old.requestId = p.requestId → ∃ q ∈ drawn, issued.requestId = q.requestId
  tokens : ∀ token ∈ db.tokens.rows, ∀ p ∈ drawn, token.tokenHash ≠ tokenHash sha256 p.nextToken

/-- A request with new values has no row, and no row follows it. -/
theorem Ledger.draw {s : Rotation} (h : Ledger sha256 config s.drawn s.db)
    (hFresh : s.fresh sha256 pending = true) :
    Ledger sha256 config (pending :: s.drawn) s.db ∧ ¬pending.Issued s.db := by
  simp only [fresh, Bool.and_eq_true, all_eq_true, decide_eq_true_eq] at hFresh
  obtain ⟨⟨⟨hDrawn, -⟩, hRows⟩, hTokens⟩ := hFresh
  have hIssued : ∀ issued ∈ s.db.issued, issued.requestId ≠ pending.requestId ∧
      issued.renewalTokenHash ≠ tokenHash sha256 pending.nextToken := by
    intro _ hMem
    obtain ⟨row, hRow, rfl⟩ := mem_issued.mp hMem
    exact hRows row hRow
  refine ⟨⟨h.reached, h.booked, ?_, ?_, ?_, ?_, ?_⟩, ?_⟩
  · intro p hp q hq hSame
    rcases mem_cons.mp hp with rfl | hOldP <;> rcases mem_cons.mp hq with rfl | hOldQ
    · rfl
    · exact absurd hSame (not_or.mpr ⟨(hDrawn q hOldQ).1.symm, (hDrawn q hOldQ).2.symm⟩)
    · exact absurd hSame (not_or.mpr (hDrawn p hOldP))
    · exact h.distinct p hOldP q hOldQ hSame
  · intro issued hMem p hp hId
    rcases mem_cons.mp hp with rfl | hp
    · exact absurd hId (hIssued issued hMem).1
    · exact h.columns issued hMem p hp hId
  · intro issued hMem p hp hHash
    rcases mem_cons.mp hp with rfl | hp
    · exact absurd hHash (hIssued issued hMem).2
    · exact h.renewal issued hMem p hp hHash
  · intro issued hMem old hOld hPrevious p hp hId
    rcases mem_cons.mp hp with rfl | hp
    · exact absurd hId (hIssued old hOld).1
    · obtain ⟨q, hq, hQ⟩ := h.lineage issued hMem old hOld hPrevious p hp hId
      exact ⟨q, mem_cons_of_mem _ hq, hQ⟩
  · intro token hToken p hp
    rcases mem_cons.mp hp with rfl | hp
    · exact hTokens token hToken
    · exact h.tokens token hToken p hp
  · rintro ⟨issued, hMem, hId⟩
    exact (hIssued issued hMem).1 hId

section

variable (h : Ledger sha256 config drawn db)
include h

/-- A credential that follows one of the Agent is one of the Agent. -/
theorem Ledger.follows {candidate : IssuanceCandidate} {nowUnix : Nat} {kind : PresentedTokenKind}
    {old : IssuedCredential} (hIssues : Issues db current candidate nowUnix kind db' current')
    (hOp : Consistent sha256 config drawn (.commitIssuance candidate nowUnix))
    (hOld : old ∈ db'.issued) (hPrevious : kind.previous = some old.fingerprint)
    (hDrawn : pending ∈ drawn) (hId : old.requestId = pending.requestId) :
    ∃ q ∈ drawn, candidate.requestId = q.requestId := by
  rcases hOp with ⟨q, hq, hAsks⟩ | hForeign
  · exact ⟨q, hq, hAsks.requestId⟩
  -- a row of the Agent can be followed with its renewal token only
  cases kind with
  | bootstrap => cases hPrevious
  | renewal fingerprint =>
    obtain rfl := Option.some.inj hPrevious
    obtain ⟨-, -, row, hRow, hFingerprint, -, -, hHash, -⟩ :=
      authenticateToken_renewal hIssues.authenticated
    have hSame : old = row.toIssuedCredential := by
      rcases hIssues.mem_issued_iff.mp hOld with hBefore | hNew
      · obtain ⟨row', hRow', rfl⟩ := mem_issued.mp hBefore
        rw [eq_of_fingerprint hRow' hRow hFingerprint.symm]
      · exact absurd (hFingerprint.trans (congrArg IssuedCredential.fingerprint hNew))
          (hIssues.apart hRow).1
    rw [hSame] at hId
    obtain ⟨hRenewal, -⟩ := h.columns _ (mem_issued.mpr ⟨row, hRow, rfl⟩) pending hDrawn hId
    exact absurd (hRenewal.symm.trans hHash) (hForeign pending hDrawn).2.2

theorem Ledger.run (hOp : Consistent sha256 config drawn op) :
    Ledger sha256 config drawn (run sha256 db op).2 := by
  obtain ⟨hReached, _, _, hGranted, hEffect⟩ := reached_effect h.reached op
  refine ⟨hReached, h.booked.effect hEffect, h.distinct, ?_, ?_, ?_, ?_⟩
  · intro issued hIssued p hp hId
    rcases hEffect.issued_before hIssued with hBefore | ⟨_, _, _, rfl, -, rfl⟩
    · exact h.columns issued hBefore p hp hId
    · rcases hOp with ⟨q, hq, hAsks⟩ | hForeign
      · obtain rfl := h.distinct q hq p hp (.inl (hAsks.requestId.symm.trans hId))
        exact ⟨hAsks.nextTokenHash, hAsks.csrDigest, hAsks.agentId, hAsks.tunnelId⟩
      · exact absurd hId.symm (hForeign p hp).1
  · intro issued hIssued p hp hHash
    rcases hEffect.issued_before hIssued with hBefore | ⟨_, _, _, rfl, -, rfl⟩
    · exact h.renewal issued hBefore p hp hHash
    · rcases hOp with ⟨q, hq, hAsks⟩ | hForeign
      · obtain rfl := h.distinct q hq p hp (.inr (hAsks.nextTokenHash.symm.trans hHash))
        exact hAsks.requestId
      · exact absurd hHash.symm (hForeign p hp).2.1
  · intro issued hIssued old hOld hPrevious p hp hId
    rcases hEffect.issued_before hIssued with hBefore | ⟨_, _, _, rfl, hIssues, rfl⟩
    · rcases hEffect.issued_before hOld with hOldBefore | ⟨_, _, _, -, hIssues, rfl⟩
      · exact h.lineage issued hBefore old hOldBefore hPrevious p hp hId
      · -- the certificate is new, so nobody follows it yet
        obtain ⟨row, hRow, rfl⟩ := mem_issued.mp hBefore
        obtain ⟨_, hFollowed, hReplaces⟩ := hGranted.previous row hRow _ hPrevious
        rw [hReplaces.fingerprint] at hPrevious
        exact absurd (Option.some.inj hPrevious) (hIssues.apart hFollowed).1
    · exact h.follows hIssues hOp hOld hPrevious hp hId
  · intro token hToken p hp
    rcases hEffect.token_before hToken with ⟨old, hOld, hAges⟩ | ⟨⟨_, rfl⟩, -⟩
    · rw [hAges.tokenHash]
      exact h.tokens old hOld p hp
    · exact (hOp p hp).symm

/-! ## What becomes of the Agent's rows -/

theorem Ledger.row_of_has (hDrawn : pending ∈ drawn)
    (hHas : pending.Has db state) :
    ∃ row ∈ db.credentials.rows, row.requestId = pending.requestId ∧ row.state = state ∧
      row.renewalTokenHash = tokenHash sha256 pending.nextToken ∧
      row.agentId = config.agentId ∧ row.tunnelId = config.tunnelId := by
  obtain ⟨row, hRow, hId, hState⟩ := hHas
  obtain ⟨hRenewal, -, hAgent, hTunnel⟩ :=
    h.columns _ (mem_issued.mpr ⟨row, hRow, rfl⟩) pending hDrawn hId
  exact ⟨row, hRow, hId, hState, hRenewal, hAgent, hTunnel⟩

/-- Whoever follows a row of the Agent is a request of the Agent, too. -/
theorem Ledger.successor {row successor : Credential}
    (hRow : row ∈ db.credentials.rows) (hSuccessor : successor ∈ db.credentials.rows)
    (hPrevious : successor.previousFingerprint = some row.fingerprint)
    (hDrawn : pending ∈ drawn) (hId : row.requestId = pending.requestId) :
    ∃ q ∈ drawn, successor.requestId = q.requestId :=
  h.lineage _ (mem_issued.mpr ⟨successor, hSuccessor, rfl⟩) _ (mem_issued.mpr ⟨row, hRow, rfl⟩)
    hPrevious pending hDrawn hId

end

/-- Where a row of the Agent comes from. -/
inductive Origin (config : AgentEnrollmentConfig) (drawn : List PendingEnrollment) (db : Db)
    (op : Op) (reply : Outcome Reply) (db' : Db) (pending : PendingEnrollment) :
    CredentialState → Prop
  | same {state : CredentialState} (has : pending.Has db state) :
      Origin config drawn db op reply db' pending state
  | activated {hash : TokenHash} {fingerprint : CertificateFingerprint} {nowUnix : Nat}
      {version : SnapshotVersion} (has : pending.Has db .pending)
      (op_eq : op = .activate pending.requestId hash fingerprint nowUnix)
      (reply_eq : reply = .ok (.activated version)) :
      Origin config drawn db op reply db' pending .active
  | retired {successor : PendingEnrollment} (mem : successor ∈ drawn)
      (has : successor.Has db .pending) (has' : successor.Has db' .active) :
      Origin config drawn db op reply db' pending .retired
  | expired (has : pending.Has db .pending) : Origin config drawn db op reply db' pending .expired
  | revoked {nowUnix : Nat} (op_eq : op = .revokeAgent config.agentId config.tunnelId nowUnix) :
      Origin config drawn db op reply db' pending .revoked
  | issued {candidate : IssuanceCandidate} {nowUnix : Nat}
      (op_eq : op = .commitIssuance candidate nowUnix)
      (requestId : candidate.requestId = pending.requestId) (absent : ¬pending.Issued db) :
      Origin config drawn db op reply db' pending .pending

theorem Ledger.origin (h : Ledger sha256 config drawn db)
    (hEffect : Effect db current op reply db' current') (hDrawn : pending ∈ drawn)
    (hHas : pending.Has db' state) : Origin config drawn db op reply db' pending state := by
  obtain ⟨row, hRow, hId, rfl⟩ := hHas
  rcases hEffect.row_before hRow with ⟨old, hOld, hChange⟩ | ⟨_, _, _, hOp, hIssues, rfl⟩
  · rw [hChange.issued] at hId
    cases hChange with
    | same => exact .same ⟨row, hOld, hId, rfl⟩
    | activated hPending hOp hReply =>
      rw [hId] at hOp
      exact .activated ⟨old, hOld, hId, hPending⟩ hOp hReply
    | @retired successor _ hMem hPending hPrevious _ hMem' =>
      obtain ⟨_, hq, hQ⟩ := h.successor hOld hMem hPrevious hDrawn hId
      exact .retired hq ⟨successor, hMem, hQ, hPending⟩ ⟨_, hMem', hQ, rfl⟩
    | expired hPending => exact .expired ⟨old, hOld, hId, hPending⟩
    | revoked _ hOp =>
      obtain ⟨-, -, hAgent, hTunnel⟩ :=
        h.columns _ (mem_issued.mpr ⟨old, hOld, rfl⟩) pending hDrawn hId
      rw [hAgent, hTunnel] at hOp
      exact .revoked hOp
  · refine .issued hOp hId ?_
    rintro ⟨_, hIssued, hSame⟩
    obtain ⟨_, hOld, rfl⟩ := mem_issued.mp hIssued
    exact (hIssues.apart hOld).2 (hSame.trans hId.symm)

/-- An active row of the Agent stays active, is followed by another one, or is revoked. -/
theorem Ledger.active_after (h : Ledger sha256 config drawn db)
    (hEffect : Effect db current op reply db' current') (hDrawn : pending ∈ drawn)
    (hHas : pending.Has db .active) :
    pending.Has db' .active ∨ (∃ q ∈ drawn, q.Has db .pending ∧ q.Has db' .active) ∨
      ∃ nowUnix, op = .revokeAgent config.agentId config.tunnelId nowUnix := by
  obtain ⟨row, hRow, hId, hState⟩ := hHas
  obtain ⟨_, hNew, hChange⟩ := hEffect.row_after hRow
  cases hChange with
  | same => exact .inl ⟨row, hNew, hId, hState⟩
  | activated => exact .inl ⟨_, hNew, hId, rfl⟩
  | @retired successor _ hMem hPending hPrevious _ hMem' =>
    obtain ⟨q, hq, hQ⟩ := h.successor hRow hMem hPrevious hDrawn hId
    exact .inr (.inl ⟨q, hq, ⟨successor, hMem, hQ, hPending⟩, ⟨_, hMem', hQ, rfl⟩⟩)
  | expired hPending =>
    rw [hState] at hPending
    cases hPending
  | revoked _ hOp =>
    obtain ⟨-, -, hAgent, hTunnel⟩ :=
      h.columns _ (mem_issued.mpr ⟨row, hRow, rfl⟩) pending hDrawn hId
    rw [hAgent, hTunnel] at hOp
    exact .inr (.inr ⟨_, hOp⟩)

/-! ## The files of the Agent -/

variable {token? token?' : Option EnrollmentToken} {journal? : Option PendingEnrollment}
  {activated activated' : Bool}

/-- The token file and the journal agree with the rows. -/
structure Agrees (sha256 : Hash) (drawn : List PendingEnrollment) (db : Db)
    (token? : Option EnrollmentToken) (journal? : Option PendingEnrollment) (activated : Bool) :
    Prop where
  mem : ∀ p, journal? = some p → p ∈ drawn
  /-- A journal that the token was not yet replaced for is retried with the same token. -/
  auth : ∀ p t, journal? = some p → token? = some t → t ≠ p.nextToken →
    ∀ issued ∈ db.issued, issued.requestId = p.requestId → issued.authTokenHash = tokenHash sha256 t
  pending : ∀ p ∈ drawn, p.Has db .pending → journal? = some p
  active : ∀ p ∈ drawn, p.Has db .active → activated = true
  unretired : ∀ p, journal? = some p → ¬p.Has db .retired
  unrevoked : ∀ p, journal? = some p → activated = true → ¬p.Has db .revoked
  /-- The token is replaced after the activation. -/
  completed : ∀ p, journal? = some p → token? = some p.nextToken → p.Has db .active
  /-- There is a credential to go on with. -/
  current : activated = true → ∃ p ∈ drawn, p.Has db .active ∧
    (token? = some p.nextToken ∨ journal? = some p)

/-- What an operation may do while the files are these. -/
structure Permitted (sha256 : Hash) (config : AgentEnrollmentConfig)
    (drawn : List PendingEnrollment) (db : Db) (token? : Option EnrollmentToken)
    (journal? : Option PendingEnrollment) (activated activated' : Bool) (op : Op) : Prop where
  consistent : Consistent sha256 config drawn op
  issuance : ∀ candidate nowUnix, op = .commitIssuance candidate nowUnix → ∀ p ∈ drawn,
    candidate.requestId = p.requestId → ¬p.Issued db → journal? = some p ∧
      ∃ t, token? = some t ∧ candidate.presentedTokenHash = tokenHash sha256 t
  activation : ∀ p ∈ drawn, ∀ hash fingerprint nowUnix version,
    op = .activate p.requestId hash fingerprint nowUnix →
      (run sha256 db op).1 = .ok (.activated version) → activated' = true
  revocation : activated = true → ∀ nowUnix,
    op ≠ .revokeAgent config.agentId config.tunnelId nowUnix
  mono : activated = true → activated' = true
  onset : activated' = true → activated = true ∨ ∃ p ∈ drawn, p.Has (run sha256 db op).2 .active

/-- An activation that succeeds is noticed. -/
theorem Permitted.activate {requestId : EnrollmentRequestId} {hash : TokenHash} {nowUnix : Nat}
    (hReply : ∀ version, (run sha256 db (.activate requestId hash fingerprint nowUnix)).1 =
      .ok (.activated version) → activated' = true) (hMono : activated = true → activated' = true)
    (hOnset : activated' = true → activated = true ∨ ∃ p ∈ drawn,
      p.Has (run sha256 db (.activate requestId hash fingerprint nowUnix)).2 .active) :
    Permitted sha256 config drawn db token? journal? activated activated'
      (.activate requestId hash fingerprint nowUnix) where
  consistent := trivial
  issuance := nofun
  activation := by
    rintro _ - _ _ _ version _ hOk
    exact hReply version hOk
  revocation := nofun
  mono := hMono
  onset := hOnset

/-- What a waiting Agent can rely on while others work on the repository. -/
structure Grows (drawn : List PendingEnrollment) (journal? : Option PendingEnrollment)
    (db db' : Db) : Prop where
  issued : ∀ issued ∈ db.issued, issued ∈ db'.issued
  expired : ∀ p : PendingEnrollment, p.Has db .expired → p.Has db' .expired
  active : ∀ p, journal? = some p → p.Has db .active → p.Has db' .active
  absent : ∀ p ∈ drawn, journal? ≠ some p → ¬p.Issued db → ¬p.Issued db'

section

variable (h : Agrees sha256 drawn db token? journal? activated)
include h

section

variable (hLedger : Ledger sha256 config drawn db)
include hLedger

theorem Agrees.grows (hGranted : Granted db current)
    (hOp : Permitted sha256 config drawn db token? journal? activated activated' op)
    (hEffect : Effect db current op reply db' current') : Grows drawn journal? db db' where
  issued := fun issued => hEffect.issued_mono
  expired := by
    rintro _ ⟨row, hRow, hId, hState⟩
    exact ⟨row, terminal_effect hGranted hEffect hRow (by rw [hState]; decide), hId, hState⟩
  active := by
    intro p hJournal hActive
    rcases hLedger.active_after hEffect (h.mem p hJournal) hActive with
      hStill | ⟨q, hq, hPending, -⟩ | ⟨now, hRevoke⟩
    · exact hStill
    · -- the request in the journal is the only one that can be pending
      have hSame := h.pending q hq hPending
      rw [hJournal] at hSame
      cases hSame
      cases hActive.state_eq hPending
    · exact absurd hRevoke (hOp.revocation (h.active p (h.mem p hJournal) hActive) now)
  absent := by
    rintro p hp hJournal hAbsent ⟨issued, hIssued, hId⟩
    obtain ⟨row, hRow, rfl⟩ := mem_issued.mp hIssued
    have hHas : p.Has db' row.state := ⟨row, hRow, hId, rfl⟩
    rcases hEffect.row_before hRow with ⟨old, hOld, hChange⟩ |
      ⟨candidate, now, kind, hCommit, -, rfl⟩
    · rw [hChange.issued] at hId
      exact hAbsent ⟨_, mem_issued.mpr ⟨old, hOld, rfl⟩, hId⟩
    · exact hJournal (hOp.issuance candidate now hCommit p hp hId hAbsent).1

/-- The first activation is one of the request in the journal. -/
theorem Agrees.first
    (hEffect : Effect db current op reply db' current') (hBefore : activated ≠ true)
    (hDrawn : pending ∈ drawn) (hActive : pending.Has db' .active) :
    journal? = some pending := by
  cases hLedger.origin hEffect hDrawn hActive with
  | same hHas => exact absurd (h.active pending hDrawn hHas) hBefore
  | activated hHas => exact h.pending pending hDrawn hHas

/-- **One operation keeps the agreement.** -/
theorem Agrees.effect (hGranted : Granted db current)
    (hOp : Permitted sha256 config drawn db token? journal? activated activated' op)
    (hEffect : Effect db current op (run sha256 db op).1 (run sha256 db op).2 current') :
    Agrees sha256 drawn (run sha256 db op).2 token? journal? activated' := by
  have hGrows := h.grows hLedger hGranted hOp hEffect
  refine ⟨h.mem, ?_, ?_, ?_, ?_, ?_, ?_, ?_⟩
  · intro p t hJournal hToken hNext issued hIssued hId
    rcases hEffect.issued_cases with hSame | ⟨candidate, now, _, hCommit, hIssues⟩
    · exact h.auth p t hJournal hToken hNext issued (hSame ▸ hIssued) hId
    rw [hIssues.issued] at hIssued
    rcases mem_append.mp hIssued with hOld | hNew
    · exact h.auth p t hJournal hToken hNext issued hOld hId
    · obtain rfl := mem_singleton.mp hNew
      -- the new row answers the journal, so it was issued for the token of the Agent
      have hAbsent : ¬p.Issued db := by
        rintro ⟨_, hOld, hSame⟩
        obtain ⟨_, hRow, rfl⟩ := mem_issued.mp hOld
        exact (hIssues.apart hRow).2 (hSame.trans hId.symm)
      obtain ⟨-, _, hToken', hHash⟩ :=
        hOp.issuance candidate now hCommit p (h.mem p hJournal) hId hAbsent
      rw [hToken] at hToken'
      cases hToken'
      exact hHash
  · intro p hp hPending
    cases hLedger.origin hEffect hp hPending with
    | same hHas => exact h.pending p hp hHas
    | issued hCommit hId hAbsent => exact (hOp.issuance _ _ hCommit p hp hId hAbsent).1
  · intro p hp hActive
    cases hLedger.origin hEffect hp hActive with
    | same hHas => exact hOp.mono (h.active p hp hHas)
    | activated _ hActivate hReply => exact hOp.activation p hp _ _ _ _ hActivate hReply
  · intro p hJournal hRetired
    cases hLedger.origin hEffect (h.mem p hJournal) hRetired with
    | same hHas => exact h.unretired p hJournal hHas
    | retired hq hPending hActive =>
      -- it would have been retired by a pending request, which is that of the journal itself
      have hSame := h.pending _ hq hPending
      rw [hJournal] at hSame
      cases hSame
      cases hRetired.state_eq hActive
  · intro p hJournal hActivated hRevoked
    by_cases hBefore : activated = true
    · cases hLedger.origin hEffect (h.mem p hJournal) hRevoked with
      | same hHas => exact h.unrevoked p hJournal hBefore hHas
      | revoked hRevoke => exact hOp.revocation hBefore _ hRevoke
    · obtain ⟨_, hq, hActive⟩ := (hOp.onset hActivated).resolve_left hBefore
      have hSame := h.first hLedger hEffect hBefore hq hActive
      rw [hJournal] at hSame
      cases hSame
      cases hRevoked.state_eq hActive
  · exact fun p hJournal hToken => hGrows.active p hJournal (h.completed p hJournal hToken)
  · intro hActivated
    by_cases hBefore : activated = true
    · obtain ⟨p, hp, hActive, hFiles⟩ := h.current hBefore
      rcases hLedger.active_after hEffect hp hActive with
        hStill | ⟨q, hq, hPending, hActive'⟩ | ⟨now, hRevoke⟩
      · exact ⟨p, hp, hStill, hFiles⟩
      · exact ⟨q, hq, hActive', .inr (h.pending q hq hPending)⟩
      · exact absurd hRevoke (hOp.revocation hBefore now)
    · obtain ⟨q, hq, hActive⟩ := (hOp.onset hActivated).resolve_left hBefore
      exact ⟨q, hq, hActive, .inr (h.first hLedger hEffect hBefore hq hActive)⟩

/-- **Both are kept by every operation, and a waiting Agent can rely on them.** -/
theorem Agrees.run
    (hOp : Permitted sha256 config drawn db token? journal? activated activated' op) :
    Ledger sha256 config drawn (run sha256 db op).2 ∧
      Agrees sha256 drawn (run sha256 db op).2 token? journal? activated' ∧
      Grows drawn journal? db (run sha256 db op).2 := by
  obtain ⟨-, _, _, hGranted, hEffect⟩ := reached_effect hLedger.reached op
  exact ⟨hLedger.run hOp.consistent, h.effect hLedger hGranted hOp hEffect,
    h.grows hLedger hGranted hOp hEffect⟩

end

/-! ## Changes of the files -/

theorem Agrees.draw (hAbsent : ¬pending.Issued db) :
    Agrees sha256 (pending :: drawn) db token? journal? activated := by
  have hOld : ∀ {p state}, p ∈ pending :: drawn → p.Has db state → p ∈ drawn := by
    intro _ _ hp hHas
    rcases mem_cons.mp hp with rfl | hp
    · exact absurd hHas.issued hAbsent
    · exact hp
  refine { h with mem := ?_, pending := ?_, active := ?_, current := ?_ }
  · exact fun p hJournal => mem_cons_of_mem _ (h.mem p hJournal)
  · exact fun p hp hHas => h.pending p (hOld hp hHas) hHas
  · exact fun p hp hHas => h.active p (hOld hp hHas) hHas
  · intro hActivated
    obtain ⟨p, hp, hRest⟩ := h.current hActivated
    exact ⟨p, mem_cons_of_mem _ hp, hRest⟩

/-- A journal goes when its request has expired or its token is stored. -/
theorem Agrees.remove (hState : ∀ p, journal? = some p →
      p.Has db .expired ∨ p.Has db .active ∧ token? = some p.nextToken) :
    Agrees sha256 drawn db token? none activated := by
  refine ⟨by simp, by simp, ?_, h.active, by simp, by simp, by simp, ?_⟩
  · intro p hp hPending
    rcases hState p (h.pending p hp hPending) with hExpired | ⟨hActive, -⟩
    · cases hPending.state_eq hExpired
    · cases hPending.state_eq hActive
  · intro hActivated
    obtain ⟨p, hp, hActive, hToken | hJournal⟩ := h.current hActivated
    · exact ⟨p, hp, hActive, .inl hToken⟩
    · rcases hState p hJournal with hExpired | ⟨-, hToken⟩
      · cases hActive.state_eq hExpired
      · exact ⟨p, hp, hActive, .inl hToken⟩

end

/-- A new journal is for a request that nobody knows. -/
theorem Agrees.put (h : Agrees sha256 drawn db token? none activated) (hDrawn : pending ∈ drawn)
    (hAbsent : ¬pending.Issued db) (hToken : token? ≠ some pending.nextToken) :
    Agrees sha256 drawn db token? (some pending) activated := by
  have hOnly : ∀ {p}, some pending = some p → p = pending := fun hSame =>
    (Option.some.inj hSame).symm
  refine ⟨?_, ?_, ?_, h.active, ?_, ?_, ?_, ?_⟩
  · rintro _ hp
    rwa [hOnly hp]
  · rintro _ _ hp - - issued hIssued hId
    rw [hOnly hp] at hId
    exact absurd ⟨issued, hIssued, hId⟩ hAbsent
  · exact fun p hp hPending => absurd (h.pending p hp hPending) (by simp)
  · rintro _ hp hHas
    rw [hOnly hp] at hHas
    exact hAbsent hHas.issued
  · rintro _ hp - hHas
    rw [hOnly hp] at hHas
    exact hAbsent hHas.issued
  · rintro _ hp hNext
    rw [hOnly hp] at hNext
    exact absurd hNext hToken
  · intro hActivated
    obtain ⟨p, hp, hActive, hNext | hNone⟩ := h.current hActivated
    · exact ⟨p, hp, hActive, .inl hNext⟩
    · cases hNone

/-- The token file is replaced when the request in the journal is active. -/
theorem Agrees.store (h : Agrees sha256 drawn db token? (some pending) activated)
    (hActive : pending.Has db .active) (hToken : ∀ t, token?' = some t → t = pending.nextToken) :
    Agrees sha256 drawn db token?' (some pending) activated := by
  refine { h with auth := ?_, completed := ?_, current := ?_ }
  · rintro _ t hp ht hNext
    cases hp
    exact absurd (hToken t ht) hNext
  · rintro _ hp -
    cases hp
    exact hActive
  · exact fun _ => ⟨pending, h.mem pending rfl, hActive, .inr rfl⟩

end TunnelProxy.Agent
