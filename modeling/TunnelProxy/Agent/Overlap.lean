import TunnelProxy.Agent.Recovery

/-!
# The certificate that an Agent holds

`rotate` replaces the files of the credential bundle before it activates the new
credential. Until then the new certificate has its grant as well, but the grant goes with
the deadline of the activation: when the reconciler runs between the two, the Agent is left
with a certificate that is refused, while the one that is still accepted has been
overwritten (`bundle_refused`). The other way round, a grant is lost in no other way
(`bundle_granted`): the predecessor's grant goes in an activation, which is sent when the
new certificate is in its place.

* `Prompt` — no certificate that the Agent holds passes its deadline unactivated
* `Held`, `Carries` — the certificate file, and the certificate of the call in progress,
  belong to live rows
* `bundle_granted` — under `Prompt` the certificate of the bundle has its grant
-/

namespace TunnelProxy.Agent

open Common Control Control.Enrollment Rotation Transition List

variable {sha256 : Hash} {config : AgentEnrollmentConfig}
  {fingerprintOf : List UInt8 → Option CertificateFingerprint} {drawn : List PendingEnrollment}
  {db db' : Db} {journal? : Option PendingEnrollment} {certificate? : Option (List UInt8)}
  {pending : PendingEnrollment} {exchanges exchanges' : List Exchange} {s s' : Rotation}
  {current current' : VersionedAuthorizationSnapshot} {op : Op}
  {reply : Outcome Reply} {pem serverCaPem : List UInt8} {fingerprint : CertificateFingerprint}
  {issued : IssuedEnrollment} {id nowUnix : Nat} {refreshed : Bool} {action : RotationAction}

/-! ## Certificates of live rows -/

/-- How a live row of the Agent can be lost. -/
inductive Lost (config : AgentEnrollmentConfig) (drawn : List PendingEnrollment) (db : Db)
    (op : Op) (db' : Db) (pem : List UInt8) (fingerprint : CertificateFingerprint) : Prop
  /-- A successor is activated. -/
  | retired {successor : Credential} {q : PendingEnrollment} {hash : TokenHash}
      {certificate : CertificateFingerprint} {nowUnix : Nat}
      (mem : successor ∈ db.credentials.rows) (pending : successor.state = .pending)
      (drawn_mem : q ∈ drawn) (requestId : successor.requestId = q.requestId)
      (op_eq : op = .activate q.requestId hash certificate nowUnix)
      (mem' : { successor with state := .active } ∈ db'.credentials.rows)
  /-- Its deadline has passed. -/
  | expired {row : Credential} {nowUnix : Nat} (mem : row ∈ db.credentials.rows)
      (pending : row.state = .pending) (due : row.activationDeadline ≤ nowUnix)
      (op_eq : op = .reconcileExpired nowUnix ∨
        ∃ q ∈ drawn, ∃ hash certificate, op = .activate q.requestId hash certificate nowUnix)
      (pem_eq : row.certificatePem = pem) (fingerprint_eq : row.fingerprint = fingerprint)
  | revoked {nowUnix : Nat} (op_eq : op = .revokeAgent config.agentId config.tunnelId nowUnix)

theorem Ledger.covers_after (h : Ledger sha256 config drawn db)
    (hEffect : Effect db current op reply db' current') (hDrawn : pending ∈ drawn)
    (hCovers : Covers db pending pem fingerprint) :
    Covers db' pending pem fingerprint ∨ Lost config drawn db op db' pem fingerprint := by
  obtain ⟨row, hRow, hId, hLive, hPem, hFingerprint⟩ := hCovers
  obtain ⟨_, hNew, hChange⟩ := hEffect.row_after hRow
  cases hChange with
  | same => exact .inl ⟨row, hNew, hId, hLive, hPem, hFingerprint⟩
  | activated => exact .inl ⟨_, hNew, hId, .inr rfl, hPem, hFingerprint⟩
  | retired hMem hPending hPrevious hOp hMem' =>
    obtain ⟨_, hq, hQ⟩ := h.successor hRow hMem hPrevious hDrawn hId
    exact .inr (.retired hMem hPending hq hQ (hQ ▸ hOp) hMem')
  | expired hPending hDue hOp =>
    refine .inr (.expired hRow hPending hDue (hOp.imp_right fun hActivate => ?_) hPem hFingerprint)
    exact ⟨pending, hDrawn, _, _, hId ▸ hActivate⟩
  | revoked _ hOp =>
    obtain ⟨-, -, hAgent, hTunnel⟩ :=
      h.columns _ (mem_issued.mpr ⟨row, hRow, rfl⟩) pending hDrawn hId
    rw [hAgent, hTunnel] at hOp
    exact .inr (.revoked hOp)

/-! ## The condition -/

/-- The certificate that the call in progress is about to write to its file. -/
def RotatePhase.held : RotatePhase → Option IssuedEnrollment
  | .enrolling _ _ _ (some (.issued issued)) => some issued
  | .publishing _ issued .serverCa | .publishing _ issued .clientCertificate => some issued
  | _ => none

/-- No pending credential whose certificate the Agent holds is past its deadline. -/
def Timely (s : Rotation) (nowUnix : Nat) : Prop :=
  ∀ row ∈ s.db.credentials.rows, row.state = .pending → row.activationDeadline ≤ nowUnix →
    s.files.clientCertificate ≠ some row.certificatePem ∧
      s.phase.held.all (·.fingerprint ≠ row.fingerprint) = true

instance (s : Rotation) (nowUnix : Nat) : Decidable (Timely s nowUnix) :=
  inferInstanceAs (Decidable (∀ row ∈ s.db.credentials.rows, _ → _ → _ ∧ _))

/-- Nothing expires that the Agent holds, and the Agent is not revoked. -/
def Prompt (config : AgentEnrollmentConfig) (s : Rotation) : RotationAction → Prop
  | .other (.revokeAgent agentId tunnelId _) =>
    ¬(agentId = config.agentId ∧ tunnelId = config.tunnelId)
  | .other (.reconcileExpired nowUnix) => Timely s nowUnix
  | .activate _ nowUnix _ => Timely s nowUnix
  | _ => True

instance (config : AgentEnrollmentConfig) (s : Rotation) (action : RotationAction) :
    Decidable (Prompt config s action) := by
  cases action with
  | other foreign => cases foreign <;> (unfold Prompt; infer_instance)
  | _ => unfold Prompt; infer_instance

theorem Prompt.unrevoked (h : Prompt config s action) : Unrevoked config s action := by
  unfold Unrevoked
  split
  · exact fun _ => h
  · trivial

/-! ## The invariant -/

/-- What is in the certificate file, and that an activation is asked for when the new
certificate is there. -/
structure Held (fingerprintOf : List UInt8 → Option CertificateFingerprint)
    (drawn : List PendingEnrollment) (db : Db) (certificate? : Option (List UInt8))
    (exchanges : List Exchange) : Prop where
  file : ∀ pem, certificate? = some pem → ∃ p ∈ drawn, ∃ fingerprint,
    fingerprintOf pem = some fingerprint ∧ Covers db p pem fingerprint
  asked : ∀ e ∈ exchanges, ∀ requestId token fingerprint,
    e.request = .activate requestId token fingerprint → ∀ row ∈ db.credentials.rows,
      row.requestId = requestId → row.state = .pending → ∀ pem, certificate? = some pem →
        row.certificatePem = pem ∧ fingerprintOf pem = some row.fingerprint

/-- What the call in progress carries. -/
def Carries (fingerprintOf : List UInt8 → Option CertificateFingerprint) (db : Db)
    (journal? : Option PendingEnrollment) (certificate? : Option (List UInt8)) :
    RotatePhase → Prop
  | .enrolling _ _ _ (some (.issued issued)) =>
    ∃ p, journal? = some p ∧ Covers db p issued.certificatePem issued.fingerprint
  | .publishing _ issued .serverCa | .publishing _ issued .clientCertificate =>
    fingerprintOf issued.certificatePem = some issued.fingerprint ∧
      ∃ p, journal? = some p ∧ Covers db p issued.certificatePem issued.fingerprint
  | .publishing _ issued _ | .reloading _ issued =>
    fingerprintOf issued.certificatePem = some issued.fingerprint ∧
      certificate? = some issued.certificatePem
  | _ => True

structure Overlapping (fingerprintOf : List UInt8 → Option CertificateFingerprint)
    (s : Rotation) : Prop where
  held : Held fingerprintOf s.drawn s.db s.files.clientCertificate s.exchanges
  carries : Carries fingerprintOf s.db s.files.journal? s.files.clientCertificate s.phase

theorem Held.subset (h : Held fingerprintOf drawn db certificate? exchanges)
    (hOld : ∀ e ∈ exchanges', ∃ old ∈ exchanges, old.id = e.id ∧ old.request = e.request) :
    Held fingerprintOf drawn db certificate? exchanges' := by
  refine { h with asked := fun e he requestId token fingerprint hRequest => ?_ }
  obtain ⟨old, hMem, -, hSame⟩ := hOld e he
  exact h.asked old hMem requestId token fingerprint (hSame.trans hRequest)

theorem Held.draw (h : Held fingerprintOf drawn db certificate? exchanges) :
    Held fingerprintOf (pending :: drawn) db certificate? exchanges := by
  refine { h with file := fun pem hFile => ?_ }
  obtain ⟨p, hp, hRest⟩ := h.file pem hFile
  exact ⟨p, mem_cons_of_mem _ hp, hRest⟩

/-! ## Operations on the repository -/

/-- What an operation owes to the Agent: expiries in time, activations that were asked for,
no revocation. -/
structure Respects (config : AgentEnrollmentConfig) (s : Rotation) (op : Op) : Prop where
  timely : ∀ nowUnix, (op = .reconcileExpired nowUnix ∨
    ∃ q ∈ s.drawn, ∃ hash certificate, op = .activate q.requestId hash certificate nowUnix) →
      Timely s nowUnix
  asked : ∀ q ∈ s.drawn, ∀ hash certificate nowUnix,
    op = .activate q.requestId hash certificate nowUnix → ∃ e ∈ s.exchanges, ∃ token fingerprint,
        e.request = .activate q.requestId token fingerprint
  unrevoked : ∀ nowUnix, op ≠ .revokeAgent config.agentId config.tunnelId nowUnix

theorem Held.effect (h : Held fingerprintOf s.drawn s.db s.files.clientCertificate s.exchanges)
    (hRecoverable : Recoverable sha256 config s) (hOp : Respects config s op)
    (hEffect : Effect s.db current op reply db' current') :
    Held fingerprintOf s.drawn db' s.files.clientCertificate s.exchanges := by
  refine ⟨fun pem hFile => ?_, fun e he requestId token fingerprint hRequest row hRow hId hState
    pem hFile => ?_⟩
  · obtain ⟨p, hp, fingerprint, hOf, hCovers⟩ := h.file pem hFile
    rcases hRecoverable.ledger.covers_after hEffect hp hCovers with hStill | hLost
    · exact ⟨p, hp, fingerprint, hOf, hStill⟩
    cases hLost with
    | retired hMem hPending hq hQ hActivate hMem' =>
      -- the file was replaced before the activation was asked for
      obtain ⟨e, he, _, _, hRequest⟩ := hOp.asked _ hq _ _ _ hActivate
      obtain ⟨hPem, hOf'⟩ :=
        h.asked e he _ _ _ hRequest _ hMem hQ hPending pem hFile
      exact ⟨_, hq, _, hOf', _, hMem', hQ, .inr rfl, hPem, rfl⟩
    | expired hMem hPending hDue hWhen hPem =>
      exact absurd (hPem ▸ hFile) (hOp.timely _ hWhen _ hMem hPending hDue).1
    | revoked hRevoke => exact absurd hRevoke (hOp.unrevoked _)
  · rcases hEffect.row_before hRow with ⟨_, hOld, hChange⟩ | ⟨_, _, _, -, hIssues, rfl⟩
    · cases hChange with
      | same => exact h.asked e he _ _ _ hRequest row hOld hId hState pem hFile
      | _ => cases hState
    · -- an activation is asked for after the issuance
      have hBacked := hRecoverable.backed e he
      rw [hRequest] at hBacked
      cases hBacked with
      | activate _ hIssued hIssuedId =>
        obtain ⟨_, hOld, rfl⟩ := mem_issued.mp hIssued
        exact absurd (hIssuedId.trans hId.symm) (hIssues.apart hOld).2

/-- A certificate that is about to be written belongs to the request in the journal. -/
theorem Covers.effect (hRecoverable : Recoverable sha256 config s) (hOp : Respects config s op)
    (hEffect : Effect s.db current op reply db' current') (hHeld : s.phase.held = some issued)
    (hJournal : s.files.journal? = some pending)
    (h : Covers s.db pending issued.certificatePem issued.fingerprint) :
    Covers db' pending issued.certificatePem issued.fingerprint := by
  have hDrawn := hRecoverable.agrees.mem pending hJournal
  rcases hRecoverable.ledger.covers_after hEffect hDrawn h with hStill | hLost
  · exact hStill
  cases hLost with
  | @retired successor q _ _ _ hMem hPending hq hQ _ hMem' =>
    have hSame := hRecoverable.agrees.pending q hq ⟨successor, hMem, hQ, hPending⟩
    rw [hJournal] at hSame
    cases hSame
    obtain ⟨row, hRow, hId, -, hPem, hFingerprint⟩ := h
    obtain rfl : row = successor := Table.eq_of_clash hRow hMem (.inr (hId.trans hQ.symm))
    exact ⟨_, hMem', hQ, .inr rfl, hPem, hFingerprint⟩
  | expired hMem hPending hDue hWhen _ hFingerprint =>
    have hNot := (hOp.timely _ hWhen _ hMem hPending hDue).2
    rw [hHeld] at hNot
    simp [hFingerprint] at hNot
  | revoked hRevoke => exact absurd hRevoke (hOp.unrevoked _)

section

variable (h : Overlapping fingerprintOf s) (hRecoverable : Recoverable sha256 config s)
include h hRecoverable

theorem Overlapping.run {activated' : Bool} (hOp : Respects config s op) :
    Overlapping fingerprintOf
      { s with db := (Enrollment.run sha256 s.db op).2, activated := activated' } := by
  obtain ⟨-, current, current', -, hEffect⟩ := reached_effect hRecoverable.ledger.reached op
  refine ⟨h.held.effect hRecoverable hOp hEffect, ?_⟩
  have hCarries := h.carries
  have hKept : ∀ issued, s.phase.held = some issued → (∃ p, s.files.journal? = some p ∧
        Covers s.db p issued.certificatePem issued.fingerprint) →
      ∃ p, s.files.journal? = some p ∧
        Covers (Enrollment.run sha256 s.db op).2 p issued.certificatePem issued.fingerprint := by
    rintro _ hHeld ⟨p, hJournal, hCovers⟩
    exact ⟨p, hJournal, hCovers.effect hRecoverable hOp hEffect hHeld hJournal⟩
  show Carries _ _ _ _ s.phase
  unfold Carries at hCarries ⊢
  split at hCarries
  · rename_i issued hPhase
    exact hKept issued (by rw [hPhase]; rfl) hCarries
  iterate 2
    · rename_i issued hPhase
      exact ⟨hCarries.1, hKept issued (by rw [hPhase]; rfl) hCarries.2⟩
  · exact hCarries
  · exact hCarries
  · trivial

/-! ## Steps -/

omit h in
/-- The certificate that the call carries is written to its file. -/
theorem Held.write
    (hOf : fingerprintOf issued.certificatePem = some issued.fingerprint)
    (hJournal : s.files.journal? = some pending)
    (hCovers : Covers s.db pending issued.certificatePem issued.fingerprint) :
    Held fingerprintOf s.drawn s.db (some issued.certificatePem) s.exchanges := by
  refine ⟨fun pem hFile => ?_, fun e he requestId token fingerprint hRequest row hRow hId hState
    pem hFile => ?_⟩
  · cases hFile
    exact ⟨pending, hRecoverable.agrees.mem pending hJournal, issued.fingerprint, hOf, hCovers⟩
  · cases hFile
    have hBacked := hRecoverable.backed e he
    rw [hRequest] at hBacked
    cases hBacked with
    | @activate q _ hq =>
      -- what is pending is the request in the journal
      have hSame := hRecoverable.agrees.pending q hq ⟨row, hRow, hId, hState⟩
      rw [hJournal] at hSame
      cases hSame
      obtain ⟨own, hOwn, hOwnId, -, hPem, hFingerprint⟩ := hCovers
      obtain rfl : own = row := Table.eq_of_clash hOwn hRow (.inr (hOwnId.trans hId.symm))
      exact ⟨hPem, hFingerprint ▸ hOf⟩

theorem Overlapping.publish {file : BundleFile}
    (hPhase : s.phase = .publishing pending issued file) (hStep : s.advance sha256 = some s') :
    Overlapping fingerprintOf s' := by
  have hCarries := h.carries
  rw [hPhase] at hCarries
  unfold Rotation.advance at hStep
  rw [hPhase] at hStep
  dsimp only at hStep
  cases file with
  | serverCa | clientPrivateKey | reloadManifest =>
    split_ifs at hStep <;> cases hStep <;> exact ⟨h.held, hCarries⟩
  | clientCertificate =>
    obtain ⟨hOf, p, hJournal, hCovers⟩ := hCarries
    split_ifs at hStep <;> cases hStep
    · exact ⟨⟨by simp [AgentFiles.remove], by simp [AgentFiles.remove]⟩, hOf, p, hJournal, hCovers⟩
    · have hWritten : Held fingerprintOf s.drawn s.db (some issued.certificatePem) s.exchanges :=
        .write hRecoverable hOf hJournal hCovers
      exact ⟨hWritten, hOf, rfl⟩

theorem Overlapping.advance (hStep : s.advance sha256 = some s') :
    Overlapping fingerprintOf s' := by
  by_cases hPublishing : ∃ pending issued file, s.phase = .publishing pending issued file
  · obtain ⟨_, _, _, hPhase⟩ := hPublishing
    exact h.publish hRecoverable hPhase hStep
  -- every other step leaves the certificate file alone, and carries nothing
  unfold Rotation.advance at hStep
  split at hStep
  iterate 2
    · split at hStep
      · cases hStep
        exact ⟨h.held, trivial⟩
      · split at hStep <;> cases hStep <;> exact ⟨h.held, trivial⟩
  · cases hStep
    exact ⟨h.held, trivial⟩
  · split_ifs at hStep
    cases hStep
    exact ⟨h.held, trivial⟩
  · split_ifs at hStep <;> cases hStep
    · exact ⟨h.held, by rename_i hPhase _; rw [hPhase]; trivial⟩
    · exact ⟨h.held, trivial⟩
  · rename_i hPhase
    exact absurd ⟨_, _, _, hPhase⟩ hPublishing
  · split_ifs at hStep <;> cases hStep
    · exact ⟨h.held, by rename_i hPhase _; rw [hPhase]; trivial⟩
    · exact ⟨h.held, trivial⟩
  · split_ifs at hStep <;> cases hStep <;> exact ⟨h.held, trivial⟩
  · cases hStep

omit hRecoverable in
theorem Overlapping.complete {generation : Option Nat}
    (hStep : s.complete generation = some s') : Overlapping fingerprintOf s' := by
  unfold Rotation.complete at hStep
  split at hStep
  · split_ifs at hStep <;> cases hStep <;> exact ⟨h.held, trivial⟩
  · cases hStep

omit hRecoverable in
theorem Overlapping.draw
    (hStep : s.draw sha256 pending = some s') : Overlapping fingerprintOf s' := by
  unfold Rotation.draw at hStep
  split_ifs at hStep
  split at hStep <;> cases hStep
  · exact ⟨h.held.draw, trivial⟩
  · exact ⟨h.held.draw, trivial⟩

theorem Overlapping.send (hStep : s.send config = some s') :
    Overlapping fingerprintOf s' := by
  have hStage := hRecoverable.stage
  have hCarries := h.carries
  unfold Rotation.send at hStep
  split at hStep
  · split_ifs at hStep
    cases hStep
    refine ⟨{ h.held with asked := fun e he => ?_ }, trivial⟩
    rcases mem_append.mp he with hOld | hNew
    · exact h.held.asked e hOld
    · obtain rfl := mem_singleton.mp hNew
      exact nofun
  · rename_i hPhase
    rw [hPhase] at hStage hCarries
    obtain ⟨-, hIssuedId, _, hOwn, hOwnId, hFingerprint, hPem⟩ := hStage
    obtain ⟨hOf, hFile⟩ := hCarries
    cases hStep
    refine ⟨{ h.held with asked := fun e he => ?_ }, trivial⟩
    rcases mem_append.mp he with hOld | hNew
    · exact h.held.asked e hOld
    · obtain rfl := mem_singleton.mp hNew
      rintro _ _ _ hRequest row hRow hId - _ hSame
      simp only [EnrollmentRequest.activate.injEq] at hRequest
      obtain ⟨rowOfOwn, hRowOfOwn, rfl⟩ := mem_issued.mp hOwn
      obtain rfl : rowOfOwn = row := Table.eq_of_clash hRowOfOwn hRow
        (.inr (hOwnId.trans (hIssuedId.symm.trans (hRequest.1.trans hId.symm))))
      obtain rfl := Option.some.inj (hFile.symm.trans hSame)
      exact ⟨hPem, hOf.trans (congrArg some hFingerprint.symm)⟩
  · cases hStep

omit hRecoverable in
theorem Overlapping.receive {accepted : Bool}
    (hStep : s.receive fingerprintOf accepted = some s') : Overlapping fingerprintOf s' := by
  have hCarries := h.carries
  unfold Rotation.receive at hStep
  split at hStep
  · rename_i response hPhase
    rw [hPhase] at hCarries
    cases hStep
    cases response with
    | issued =>
      unfold receiveIssued
      dsimp only
      split_ifs with hId hOf
      iterate 4
        · exact ⟨h.held, trivial⟩
      · exact ⟨h.held, not_not.mp hOf, hCarries⟩
    | activated => exact ⟨h.held, trivial⟩
    | error code => cases code <;> exact ⟨h.held, trivial⟩
  · cases hStep
    rename_i issued exchange response hPhase
    cases response with
    | issued | activated => exact ⟨h.held, trivial⟩
    | error code => cases code <;> exact ⟨h.held, trivial⟩
  · cases hStep

/-- An answer that carries a certificate carries the one of a live row. -/
theorem Overlapping.answer {exchange : Exchange} {response : EnrollmentResponse}
    (hMem : exchange ∈ s.exchanges)
    (hIssued : ∀ token pending issued,
      Enrolls config s.files.token? s.files.journal? exchange.request token pending →
      response = .issued issued → Covers s.db pending issued.certificatePem issued.fingerprint) :
    Overlapping fingerprintOf (s.answer exchange.id response) := by
  refine ⟨h.held.subset filter_old, ?_⟩
  have hCarries := h.carries
  show Carries fingerprintOf s.db s.files.journal? s.files.clientCertificate
    (s.phase.answered exchange.id response)
  unfold RotatePhase.answered
  split
  · rename_i token pending id hPhase
    split_ifs with hId
    · obtain ⟨hToken, hJournal, hNext, hRequest⟩ := hRecoverable.stageAt hPhase
      cases response with
      | issued issued =>
        exact ⟨pending, hJournal, hIssued token pending issued
          ⟨hToken, hJournal, hNext, hRequest exchange hMem hId.symm⟩ rfl⟩
      | _ => trivial
    · exact hCarries
  · split_ifs
    · trivial
    · exact hCarries
  · exact hCarries

theorem Overlapping.preflight
    (hStep : s.preflight sha256 id nowUnix serverCaPem refreshed = some s') :
    Overlapping fingerprintOf s' := by
  unfold Rotation.preflight at hStep
  split at hStep
  · rename_i requestId token nextToken agentId tunnelId csrDer hFind
    obtain ⟨hMem, rfl⟩ := mem_of_exchange? hFind
    split at hStep
    · cases hStep
      exact h.answer hRecoverable hMem fun _ _ _ _ hSame => (by cases hSame)
    · rename_i durable hFound
      cases hStep
      refine h.answer hRecoverable hMem fun t p issued hEnrolls hResponse => ?_
      cases hEnrolls.sent
      have hTruthful : Truthful s.db s.late p
          (issuedResponse p.requestId serverCaPem refreshed durable) :=
        .issued ((hRecoverable.asking hEnrolls).preflight (.ok durable) hFound)
      exact hTruthful.covers issued hResponse
    · cases hStep
      refine ⟨h.held.subset fun e he => ?_, h.carries⟩
      obtain ⟨old, hOld, rfl⟩ := mem_map.mp he
      refine ⟨old, hOld, ?_⟩
      split_ifs <;> exact ⟨rfl, rfl⟩
  · cases hStep

theorem Overlapping.sign {notAfterUnix activationDeadlineUnix : Nat} {certificatePem : List UInt8}
    {fingerprint : CertificateFingerprint}
    (hStep : s.sign sha256 id certificatePem fingerprint notAfterUnix activationDeadlineUnix
      nowUnix serverCaPem refreshed = some s') : Overlapping fingerprintOf s' := by
  obtain ⟨_, hMem, candidate, _, -, hOp, rfl, hTruthful⟩ :=
    hRecoverable.sign_cases hStep
  have hRespects : Respects config s (.commitIssuance candidate nowUnix) := by
    refine ⟨fun _ hWhen => ?_, nofun,
      nofun⟩
    rcases hWhen with hSame | ⟨_, _, _, _, hSame⟩ <;> cases hSame
  exact (h.run hRecoverable hRespects).answer (hRecoverable.run hOp) hMem
    fun t p issued hEnrolls => (hTruthful t p hEnrolls).covers issued

theorem Overlapping.activate (hTimely : Timely s nowUnix)
    (hStep : s.activate sha256 id nowUnix refreshed = some s') : Overlapping fingerprintOf s' := by
  obtain ⟨exchange, hMem, requestId, token, certificate, hash, activated', response, hIs, hOp,
    rfl, hNotIssued, -⟩ := hRecoverable.activate_cases hStep
  have hRespects : Respects config s (.activate requestId hash certificate nowUnix) := by
    refine ⟨fun _ hWhen => ?_, fun q hq _ _ _ hSame => ?_, nofun⟩
    · rcases hWhen with hSame | ⟨_, _, _, _, hSame⟩ <;> cases hSame
      exact hTimely
    · cases hSame
      exact ⟨exchange, hMem, token, certificate, hIs⟩
  exact (h.run hRecoverable hRespects).answer (hRecoverable.run hOp) hMem
    fun _ _ issued _ hSame => absurd hSame (hNotIssued issued)

theorem Overlapping.other (hForeign : s.foreign sha256 op = true)
    (hGuard : Prompt config s (.other op)) :
    Overlapping fingerprintOf { s with db := (Enrollment.run sha256 s.db op).2 } := by
  have hNotOwn : ∀ q ∈ s.drawn, ∀ hash certificate nowUnix,
      op ≠ .activate q.requestId hash certificate nowUnix := by
    rintro q hq _ _ _ rfl
    exact absurd rfl (of_decide_eq_true (all_eq_true.mp hForeign q hq))
  refine h.run hRecoverable ⟨fun nowUnix hWhen => ?_, fun q hq hash certificate nowUnix hSame =>
    absurd hSame (hNotOwn q hq hash certificate nowUnix), ?_⟩
  · rcases hWhen with rfl | ⟨q, hq, hash, certificate, hSame⟩
    · exact hGuard
    · exact absurd hSame (hNotOwn q hq hash certificate nowUnix)
  · rintro _ rfl
    exact hGuard ⟨rfl, rfl⟩

theorem Overlapping.step (hGuard : Prompt config s action)
    (hStep : s.step sha256 fingerprintOf config action = some s') :
    Overlapping fingerprintOf s' := by
  cases action with
  | rotate | fails =>
    simp only [Rotation.step] at hStep
    split_ifs at hStep
    cases hStep
    exact ⟨h.held, trivial⟩
  | crash =>
    cases hStep
    exact ⟨h.held, trivial⟩
  | advance => exact h.advance hRecoverable hStep
  | draw => exact h.draw hStep
  | complete => exact h.complete hStep
  | send => exact h.send hRecoverable hStep
  | receive => exact h.receive hStep
  | preflight => exact h.preflight hRecoverable hStep
  | sign => exact h.sign hRecoverable hStep
  | activate => exact h.activate hRecoverable hGuard hStep
  | serverFails =>
    simp only [Rotation.step] at hStep
    split_ifs at hStep with hSome
    cases hStep
    obtain ⟨_, hFind⟩ := Option.isSome_iff_exists.mp hSome
    obtain ⟨hMem, rfl⟩ := mem_of_exchange? hFind
    exact h.answer hRecoverable hMem fun _ _ _ _ hSame => (by cases hSame)
  | drop =>
    cases hStep
    exact ⟨h.held.subset filter_old, h.carries⟩
  | other =>
    simp only [Rotation.step] at hStep
    split_ifs at hStep with hForeign
    cases hStep
    exact h.other hRecoverable hForeign hGuard

end

/-! ## The grant of the bundle -/

theorem clientCertificate_of_completeBundle {files : AgentFiles}
    (h : files.completeBundle sha256 = some pem) : files.clientCertificate = some pem := by
  unfold AgentFiles.completeBundle at h
  split at h
  · rename_i hCertificate _ _
    split_ifs at h
    cases h
    exact hCertificate
  · cases h

/-- **What the Agent holds is accepted, as long as it is prompt.** In every run without a
revocation of the Agent in which no certificate that the Agent has received passes its
deadline before it is activated, the certificate of a complete bundle has its grant in the
durable snapshot. -/
theorem bundle_granted {tokenFile : List UInt8} {actions : List RotationAction}
    (hEmpty : db.credentials.rows = [])
    (hGuard : Guarded (Rotation.step sha256 fingerprintOf config) (Prompt config)
      (start db tokenFile) actions)
    (hRun : exec (Rotation.step sha256 fingerprintOf config) (start db tokenFile)
      actions = some s)
    (hBundle : s.files.completeBundle sha256 = some pem) :
    ∃ fingerprint current, fingerprintOf pem = some fingerprint ∧
      loadSnapshot sha256 s.db = .ok current ∧
      ⟨fingerprint, config.agentId, [⟨config.tunnelId, .enabled⟩]⟩ ∈ current.snapshot.grants := by
  have hBoth : Recoverable sha256 config s ∧ Overlapping fingerprintOf s :=
    exec_induction_guarded
      (P := fun s => Recoverable sha256 config s ∧ Overlapping fingerprintOf s)
      (fun _ _ _ hBefore hOk hStep =>
        ⟨hBefore.1.step hOk.unrevoked hStep, hBefore.2.step hBefore.1 hOk hStep⟩)
      ⟨recoverable_start hEmpty, ⟨(by rintro _ ⟨⟩), (by simp [start])⟩, trivial⟩ hGuard hRun
  obtain ⟨hRecoverable, hOverlapping⟩ := hBoth
  obtain ⟨p, hp, fingerprint, hOf, row, hRow, hId, hLive, -, hFingerprint⟩ :=
    hOverlapping.held.file pem (clientCertificate_of_completeBundle hBundle)
  obtain ⟨-, -, hAgent, hTunnel⟩ :=
    hRecoverable.ledger.columns _ (mem_issued.mpr ⟨row, hRow, rfl⟩) p hp hId
  rcases hRecoverable.ledger.reached with ⟨current, hLoad, hGranted⟩ | ⟨-, hNone⟩
  · obtain ⟨hGrant, hOnly⟩ := hGranted.grants hRow
    obtain ⟨grant, hMem, hCertificate⟩ := hGrant.mp hLive
    refine ⟨fingerprint, current, hOf, hLoad, ?_⟩
    rw [hOnly grant hMem hCertificate, hFingerprint, hAgent, hTunnel] at hMem
    exact hMem
  · rw [hNone] at hRow
    cases hRow

open RotationExample EnrollmentExample in
theorem bundle_granted_interrupted :
    ∃ s fingerprint current, exec system provisioned interrupted = some s ∧
      s.files.completeBundle digest = some [2] ∧ certificateDigest [2] = some fingerprint ∧
      loadSnapshot digest s.db = .ok current ∧
      ⟨fingerprint, agentId, [⟨web, .enabled⟩]⟩ ∈ current.snapshot.grants := by
  obtain ⟨s, hs, hBundle⟩ : ∃ s, exec system provisioned interrupted = some s ∧
      s.files.completeBundle digest = some [2] := by decide +kernel
  have hGuard : Guarded system (Prompt webConfig) provisioned interrupted := by
    decide +kernel
  obtain ⟨fingerprint, current, hOf, hLoad, hGrant⟩ := bundle_granted rfl hGuard hs hBundle
  exact ⟨s, fingerprint, current, hs, hBundle, hOf, hLoad, hGrant⟩

namespace RotationExample

open EnrollmentExample

/-- The second rotation has published its files, and the reconciler runs after the deadline of
its activation. -/
def overtaken : List RotationAction :=
  first ++ issue 2 2 30 ++ [.receive true] ++ List.replicate 8 .advance ++
    [.other (.reconcileExpired 600)]

/-- The certificates that have a grant. -/
def granted (db : Db) : List CertificateFingerprint :=
  match loadSnapshot digest db with
  | .ok current => current.snapshot.grants.map (·.certificate)
  | .error _ => []

end RotationExample

open RotationExample EnrollmentExample in
/-- **The overlap ends too early.** After a first activation and without any revocation, the
complete bundle of the Agent holds the second certificate and only the first one has a
grant. -/
theorem bundle_refused :
    ∃ s, exec system provisioned overtaken = some s ∧ s.activated = true ∧
      s.files.completeBundle digest = some [2] ∧ certificateDigest [2] = some (digest [2]) ∧
      granted s.db = [digest [1]] ∧ digest [2] ≠ digest [1] := by
  decide +kernel

end TunnelProxy.Agent
