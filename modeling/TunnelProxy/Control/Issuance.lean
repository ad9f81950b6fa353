import TunnelProxy.Control.Credentials

/-!
# Exactly-once issuance

A request id has one credential, however often it is committed, and a retry gets what the
first commit got. Commits are checked for their deadlines before the request is looked
up, so a retry whose own deadline has passed is refused (`retry_refused_late`); the
statement is about commits in time and about all preflights.

* `commitIssuance_of_mem`, `preflightIssuance_of_mem` — calls for a request with a row
* `commitIssuance_new` — a commit for a request without a row
* `Booked` — a bootstrap token that authenticated a credential is consumed
* `issuance_exactly_once` — all of it, over every run
-/

namespace TunnelProxy.Control.Enrollment

open Std Common Transition List

variable {sha256 : Hash} {db db' : Db} {current current' : VersionedAuthorizationSnapshot}
  {row : Credential} {request : IssuanceRequest} {candidate : IssuanceCandidate} {nowUnix : Nat}

/-! ## Requests with a row -/

/-- The request is the one that the credential was issued for. -/
def IssuanceRequest.Repeats (request : IssuanceRequest) (issued : IssuedCredential) : Prop :=
  issued.authTokenHash = request.presentedTokenHash ∧
    issued.renewalTokenHash = request.nextTokenHash ∧ issued.agentId = request.agentId ∧
    issued.tunnelId = request.tunnelId ∧ issued.csrDigest = request.csrDigest

/-- The deadlines of the candidate make sense now. -/
def IssuanceCandidate.InTime (candidate : IssuanceCandidate) (nowUnix : Nat) : Prop :=
  nowUnix < candidate.activationDeadlineUnix ∧
    candidate.activationDeadlineUnix ≤ candidate.notAfterUnix

instance : Decidable (candidate.InTime nowUnix) := inferInstanceAs (Decidable (_ ∧ _))

section

variable (hRow : row ∈ db.credentials.rows) (hTime : 0 ≤ row.notAfter)
include hRow hTime

theorem loadIssuance_of_mem :
    loadIssuance db row.requestId = .ok (some row) := by
  unfold loadIssuance
  cases hFind : db.credentials.rows.find? (·.requestId = row.requestId) with
  | none => simpa using find?_eq_none.mp hFind row hRow
  | some found =>
    have hId : found.requestId = row.requestId := by simpa using find?_some hFind
    obtain rfl : found = row :=
      Table.eq_of_clash (mem_of_find?_eq_some hFind) hRow (.inr hId)
    simp [Int.not_lt.mpr hTime]

theorem preflightIssuance_of_mem (hId : request.requestId = row.requestId) :
    preflightIssuance db request nowUnix = (retry row request).map some := by
  unfold preflightIssuance
  rw [hId, loadIssuance_of_mem hRow hTime, ok_bind]
  dsimp only
  cases retry row request <;> rfl

theorem commitIssuance_of_mem (hId : candidate.requestId = row.requestId) :
    commitIssuance sha256 db candidate nowUnix =
      (if candidate.InTime nowUnix then retry row candidate.toIssuanceRequest
        else .error .invalidTime, db) := by
  have hChecked : candidate.activationDeadlineUnix ≤ nowUnix ∨
      candidate.notAfterUnix < candidate.activationDeadlineUnix ↔ ¬candidate.InTime nowUnix := by
    unfold IssuanceCandidate.InTime
    omega
  unfold commitIssuance
  rw [hId, loadIssuance_of_mem hRow hTime, ok_bind]
  simp only [hChecked, ite_not]
  split_ifs
  · cases retry row candidate.toIssuanceRequest <;> rfl
  · rfl

end

/-- A retry is answered by the state of its row. -/
theorem retry_state (h : request.Repeats row.toIssuedCredential) :
    retry row request = (ensureRetryableState row.state).map fun _ => row.issuance := by
  obtain ⟨hAuth, hNext, hAgent, hTunnel, hCsr⟩ := h
  unfold retry verifyIdempotentFields
  rw [if_neg (by simp [hAuth, hNext, hAgent, hTunnel, hCsr])]
  cases row.state <;> rfl

theorem retry_different (h : ¬request.Repeats row.toIssuedCredential) :
    retry row request = .error .conflict := by
  unfold IssuanceRequest.Repeats at h
  unfold retry verifyIdempotentFields
  rw [if_pos (by tauto)]
  rfl

/-- A retry that is answered repeats the request of a live credential. -/
theorem retry_eq_ok {issuance : DurableIssuance} (h : retry row request = .ok issuance) :
    request.Repeats row.toIssuedCredential ∧ row.state.Live := by
  by_cases hRepeats : request.Repeats row.toIssuedCredential
  · refine ⟨hRepeats, ?_⟩
    obtain ⟨_, -, h⟩ := bind_eq_ok.mp h
    obtain ⟨_, hState, -⟩ := bind_eq_ok.mp h
    cases hCase : row.state with
    | pending => exact .inl rfl
    | active => exact .inr rfl
    | _ =>
      rw [hCase] at hState
      cases hState
  · rw [retry_different hRepeats] at h
    cases h

theorem mem_of_loadIssuance {requestId : EnrollmentRequestId}
    (h : loadIssuance db requestId = .ok (some row)) : row ∈ db.credentials.rows := by
  unfold loadIssuance at h
  split at h
  · cases h
  · rename_i hFind
    split_ifs at h
    cases h
    exact mem_of_find?_eq_some hFind

/-! ## Requests without a row -/

theorem commitIssuance_new
    (hNew : ∀ row ∈ db.credentials.rows, row.requestId ≠ candidate.requestId) :
    (∃ error, commitIssuance sha256 db candidate nowUnix = (.error error, db)) ∨
      ∃ current current' kind db', loadSnapshot sha256 db = .ok current ∧
        loadSnapshot sha256 db' = .ok current' ∧
        Issues db current candidate nowUnix kind db' current' ∧
        commitIssuance sha256 db candidate nowUnix =
          (.ok (candidate.pendingRow current'.version kind).issuance, db') := by
  have hNone : loadIssuance db candidate.requestId = .ok none := by
    unfold loadIssuance
    rw [find?_eq_none.mpr (by simpa using hNew)]
  unfold commitIssuance
  split_ifs
  · exact .inl ⟨.invalidTime, rfl⟩
  rw [hNone]
  cases hIssue : issue sha256 db candidate nowUnix with
  | error error => exact .inl ⟨error, rfl⟩
  | ok result =>
    obtain ⟨_, db'⟩ := result
    obtain ⟨current, kind, current', hLoad, hLoad', hIssues, rfl⟩ := issue_eq_ok hIssue
    exact .inr ⟨current, current', kind, db', hLoad, hLoad', hIssues, rfl⟩

/-! ## Bootstrap tokens are used once -/

/-- A credential without a predecessor consumed its token, and was the only one to do so. -/
structure Booked (db : Db) : Prop where
  notAfter : ∀ issued ∈ db.issued, 0 ≤ issued.notAfter
  consumed : ∀ issued ∈ db.issued, issued.previousFingerprint = none →
    ∃ token ∈ db.tokens.rows, token.tokenHash = issued.authTokenHash ∧ token.consumed = true
  once : ∀ a ∈ db.issued, ∀ b ∈ db.issued, a.previousFingerprint = none →
    b.previousFingerprint = none → a.authTokenHash = b.authTokenHash → a = b

theorem booked_empty (hEmpty : db.credentials.rows = []) : Booked db := by
  constructor <;> simp [Db.issued, hEmpty]

/-- A token that authenticates a bootstrap was not consumed before. -/
theorem Booked.unused {kind : PresentedTokenKind} {issued : IssuedCredential} (h : Booked db)
    (hIssues : Issues db current candidate nowUnix kind db' current')
    (hFirst : kind.previous = none)
    (hIssued : issued ∈ db.issued) (hRoot : issued.previousFingerprint = none) :
    issued.authTokenHash ≠ candidate.presentedTokenHash := by
  intro hHash
  cases kind with
  | renewal => cases hFirst
  | bootstrap =>
    obtain ⟨used, hUsed, hUsedHash, hConsumed⟩ := h.consumed issued hIssued hRoot
    obtain ⟨token, hToken, hTokenHash, -, -, -, hFresh⟩ :=
      authenticateToken_bootstrap hIssues.authenticated
    obtain rfl : used = token :=
      Table.eq_of_clash hUsed hToken (hUsedHash.trans (hHash.trans hTokenHash.symm))
    cases hConsumed.symm.trans hFresh

theorem Booked.effect {op : Op} {reply : Outcome Reply} (h : Booked db)
    (hEffect : Effect db current op reply db' current') : Booked db' := by
  refine ⟨?_, ?_, ?_⟩
  · intro issued hIssued
    rcases hEffect.issued_before hIssued with hOld | ⟨candidate, _, _, -, -, rfl⟩
    · exact h.notAfter issued hOld
    · exact Int.natCast_nonneg candidate.notAfterUnix
  · intro issued hIssued hRoot
    rcases hEffect.issued_before hIssued with hOld | ⟨_, _, kind, -, hIssues, rfl⟩
    · obtain ⟨_, hToken, hHash, hConsumed⟩ := h.consumed issued hOld hRoot
      obtain ⟨token', hToken', hAges⟩ := hEffect.tokens_mono hToken
      exact ⟨token', hToken', hAges.tokenHash.trans hHash, hAges.consumed hConsumed⟩
    · cases kind with
      | renewal => cases hRoot
      | bootstrap =>
        obtain ⟨token, hToken, hHash, -⟩ := authenticateToken_bootstrap hIssues.authenticated
        have hTokens := hIssues.tokens
        rw [if_pos rfl] at hTokens
        refine ⟨{ token with consumed := true }, ?_, hHash, rfl⟩
        rw [hTokens, Db.consume, Table.mem_updateWhere]
        exact ⟨token, hToken, by simp [hHash]⟩
  · rcases hEffect.issued_cases with hSame | ⟨_, _, _, -, hIssues⟩
    · exact hSame ▸ h.once
    intro a ha b hb hRootA hRootB hSame
    rcases hIssues.mem_issued_iff.mp ha with hOldA | rfl
    · rcases hIssues.mem_issued_iff.mp hb with hOldB | rfl
      · exact h.once a hOldA b hOldB hRootA hRootB hSame
      · exact absurd hSame (h.unused hIssues hRootB hOldA hRootA)
    · rcases hIssues.mem_issued_iff.mp hb with hOldB | rfl
      · exact absurd hSame.symm (h.unused hIssues hRootA hOldB hRootB)
      · rfl

theorem booked_run {ops : List Op} (h : Reached sha256 db) (hBooked : Booked db)
    (hRun : exec (step sha256) db ops = some db') :
    Reached sha256 db' ∧ Booked db' :=
  reached_run (fun _ => booked_empty) (fun _ _ _ _ _ _ _ _ h hEffect => h.effect hEffect) h
    hBooked guarded_true hRun

/-- What was issued once is there after every run. -/
theorem issued_run {ops : List Op} {issued : IssuedCredential} (h : Reached sha256 db)
    (hIssued : issued ∈ db.issued) (hRun : exec (step sha256) db ops = some db') :
    issued ∈ db'.issued := by
  obtain ⟨_, hRow, -⟩ := mem_issued.mp hIssued
  exact sound_keeps (fun _ hMem hEffect => hEffect.issued_mono hMem) (h.sound hRow) hIssued hRun

/-! ## Every run -/

/-- **Exactly-once issuance.** Take any run from an empty table of credentials. A commit
for a request id without a credential fails and changes nothing, or adds one credential
and one snapshot version and returns that credential. Once a credential is there, no
commit with its request id changes anything, in any later state; as long as it is pending
or active, every preflight that repeats the request and every commit in time that does so
returns it, whatever certificate and times the commit brings; those that differ are refused as
conflicts, and every commit out of time with `InvalidTime`. No two credentials were issued for
one bootstrap token. -/
theorem issuance_exactly_once {db₀ : Db} {ops : List Op} (hEmpty : db₀.credentials.rows = [])
    (hRun : exec (step sha256) db₀ ops = some db) :
    (∀ candidate nowUnix, (∀ issued ∈ db.issued, issued.requestId ≠ candidate.requestId) →
      (∃ error, run sha256 db (.commitIssuance candidate nowUnix) = (.error error, db)) ∨
      ∃ issued db' current current', run sha256 db (.commitIssuance candidate nowUnix) =
          (.ok (.issued issued.issuance), db') ∧
        issued.requestId = candidate.requestId ∧
        candidate.toIssuanceRequest.Repeats issued ∧ db'.issued = db.issued ++ [issued] ∧
        loadSnapshot sha256 db = .ok current ∧ loadSnapshot sha256 db' = .ok current' ∧
        current'.version.value = current.version.value + 1) ∧
    (∀ issued ∈ db.issued, ∀ later db', exec (step sha256) db later = some db' →
      ∃ row ∈ db'.credentials.rows, row.toIssuedCredential = issued ∧
        ∀ (candidate : IssuanceCandidate) (nowUnix : Nat), candidate.requestId = issued.requestId →
          (run sha256 db' (.commitIssuance candidate nowUnix)).2 = db' ∧
          (¬candidate.InTime nowUnix →
            (run sha256 db' (.commitIssuance candidate nowUnix)).1 = .error .invalidTime) ∧
          (candidate.toIssuanceRequest.Repeats issued → row.state = .pending ∨ row.state = .active →
            preflightIssuance db' candidate.toIssuanceRequest nowUnix = .ok (some issued.issuance) ∧
            (candidate.InTime nowUnix → (run sha256 db' (.commitIssuance candidate nowUnix)).1 =
                .ok (.issued issued.issuance))) ∧
          (¬candidate.toIssuanceRequest.Repeats issued →
            preflightIssuance db' candidate.toIssuanceRequest nowUnix = .error .conflict ∧
            (candidate.InTime nowUnix →
              (run sha256 db' (.commitIssuance candidate nowUnix)).1 = .error .conflict))) ∧
    ∀ a ∈ db.issued, ∀ b ∈ db.issued, a.previousFingerprint = none →
      b.previousFingerprint = none → a.authTokenHash = b.authTokenHash → a = b := by
  obtain ⟨hReached, hBooked⟩ := booked_run (reached_init hEmpty) (booked_empty hEmpty) hRun
  refine ⟨?_, ?_, hBooked.once⟩
  · intro candidate nowUnix hNew
    have hNew' : ∀ row ∈ db.credentials.rows, row.requestId ≠ candidate.requestId :=
      fun row hRow => hNew _ (mem_issued.mpr ⟨row, hRow, rfl⟩)
    have hCases : (∃ error, commitIssuance sha256 db candidate nowUnix = (.error error, db)) ∨ _ :=
      commitIssuance_new hNew'
    rcases hCases with ⟨error, hFailed⟩ |
      ⟨current, current', kind, db', hLoad, hLoad', hIssues, hIssued⟩
    · exact .inl ⟨error, by rw [run, hFailed]; rfl⟩
    · refine .inr ⟨_, db', current, current', by rw [run, hIssued]; rfl, rfl,
        ⟨rfl, rfl, rfl, rfl, rfl⟩, hIssues.issued, hLoad, hLoad', hIssues.version⟩
  · intro _ hIssued _ db' hLater
    obtain ⟨row, hRow, rfl⟩ := mem_issued.mp (issued_run hReached hIssued hLater)
    have hTime := (booked_run hReached hBooked hLater).2.notAfter _
      (mem_issued.mpr ⟨row, hRow, rfl⟩)
    refine ⟨row, hRow, rfl, fun candidate nowUnix hId => ?_⟩
    have hCommit : commitIssuance sha256 db' candidate nowUnix = _ :=
      commitIssuance_of_mem hRow hTime hId
    have hPreflight : preflightIssuance db' candidate.toIssuanceRequest nowUnix = _ :=
      preflightIssuance_of_mem hRow hTime hId
    refine ⟨by rw [run, hCommit]; rfl, fun hLate => by rw [run, hCommit, if_neg hLate]; rfl,
      fun hRepeats hLive => ?_, fun hDifferent => ?_⟩
    · have hRetry : retry row candidate.toIssuanceRequest = .ok row.issuance := by
        rw [retry_state hRepeats]
        rcases hLive with hState | hState <;> rw [hState] <;> rfl
      rw [hPreflight, run, hCommit, hRetry]
      exact ⟨rfl, fun hInTime => by rw [if_pos hInTime]; rfl⟩
    · rw [hPreflight, run, hCommit, retry_different hDifferent]
      exact ⟨rfl, fun hInTime => by rw [if_pos hInTime]; rfl⟩

namespace EnrollmentExample

/-- The first request is committed. -/
def committed : List Op :=
  [.createBootstrapToken (filled 200) agentId web 100, .commitIssuance (attempt 1 200) 10]

/-- The first request again, with a certificate that ends before the deadline. -/
def shortLived : IssuanceCandidate := { attempt 1 200 with notAfterUnix := 5 }

end EnrollmentExample

open EnrollmentExample in
/-- A retry of a pending request gets its issuance from a preflight and from a commit in
time, but not from a commit with the same request fields and other times. -/
theorem retry_refused_late :
    ∃ db, exec (step digest) initial committed = some db ∧ states db = [.pending] ∧
      ∃ issuance, preflightIssuance db (attempt 1 200).toIssuanceRequest 12 = .ok (some issuance) ∧
        (run digest db (.commitIssuance (attempt 1 200) 12)).1 = .ok (.issued issuance) ∧
        shortLived.toIssuanceRequest = (attempt 1 200).toIssuanceRequest ∧
        (run digest db (.commitIssuance shortLived 12)).1 = .error .invalidTime ∧
        (run digest db (.commitIssuance (attempt 1 200) 20)).1 = .error .invalidTime := by
  obtain ⟨db, hdb, hStates, row, -, hPreflight, hRetry, hShort, hLate⟩ : ∃ db,
      exec (step digest) initial committed = some db ∧ states db = [.pending] ∧
      ∃ row ∈ db.credentials.rows,
        preflightIssuance db (attempt 1 200).toIssuanceRequest 12 = .ok (some row.issuance) ∧
        (run digest db (.commitIssuance (attempt 1 200) 12)).1 = .ok (.issued row.issuance) ∧
        (run digest db (.commitIssuance shortLived 12)).1 = .error .invalidTime ∧
        (run digest db (.commitIssuance (attempt 1 200) 20)).1 = .error .invalidTime := by
    decide +kernel
  exact ⟨db, hdb, hStates, row.issuance, hPreflight, hRetry, rfl, hShort, hLate⟩

open EnrollmentExample in
/-- One credential was issued for the token, and a commit with another digest of the
signing request is refused. -/
theorem issuance_exactly_once_committed :
    ∃ db, exec (step digest) initial committed = some db ∧ db.issued.length = 1 ∧
      (run digest db (.commitIssuance { attempt 1 200 with csrDigest := filled 8 } 12)).1 =
        .error .conflict := by
  obtain ⟨db, hdb, hIssued⟩ : ∃ db, exec (step digest) initial committed = some db ∧
      db.issued.map (fun issued => (issued.requestId, issued.csrDigest)) =
        [(filled 1, filled 7)] := by decide +kernel
  obtain ⟨-, hRetries, -⟩ := issuance_exactly_once rfl hdb
  obtain ⟨issued, hOne⟩ := length_eq_one_iff.mp (by simpa using congrArg List.length hIssued)
  simp only [hOne, map_cons, map_nil, List.cons.injEq, Prod.mk.injEq, and_true] at hIssued
  obtain ⟨_, -, -, hCalls⟩ := hRetries issued (hOne ▸ mem_cons_self) [] db rfl
  obtain ⟨-, -, -, hDifferent⟩ :=
    hCalls { attempt 1 200 with csrDigest := filled 8 } 12 hIssued.1.symm
  refine ⟨db, hdb, by rw [hOne]; rfl, (hDifferent fun hRepeats => ?_).2 (by decide)⟩
  have hCsr := hIssued.2.symm.trans hRepeats.2.2.2.2
  exact absurd hCsr (by decide)

end TunnelProxy.Control.Enrollment
