import TunnelProxy.Control.Issuance

/-!
# Renewal

A renewal token is not consumed when it is used, so a credential can have several pending
successors, and activation does not look at the state of the predecessor: two of them can
be activated one after the other, and both stay active (`renewal_multiplies`). In runs in
which no renewal is issued while an earlier one of the same credential is pending
(`renewsOnce`), renewal replaces.

* `Linear` — what the successors of one credential can be in such runs
* `SoleActive` — the active credentials that descend from one bootstrap token
* `renewal_replaces` — at most one successor is ever active, it is activated while its
  predecessor is active, and of all that descend from one bootstrap token one is active
-/

namespace TunnelProxy.Control.Enrollment

open Std Common Transition List

variable {sha256 : Hash} {db db' : Db} {current current' : VersionedAuthorizationSnapshot} {op : Op}
  {reply : Outcome Reply} {row activated : Credential} {tokenHash : TokenHash} {nowUnix : Nat}
  {previous successor : CertificateFingerprint}

/-! ## Successors -/

/-- No renewal is committed while one from another request is pending. -/
def renewsOnce (db : Db) : Op → Bool
  | .commitIssuance candidate nowUnix =>
    match authenticateToken db candidate.presentedTokenHash candidate.agentId candidate.tunnelId
        nowUnix with
    | .ok (.renewal previous) => db.credentials.rows.all fun row =>
        row.state = .pending → row.previousFingerprint = some previous →
          row.requestId = candidate.requestId
    | _ => true
  | _ => true

/-- The successors of a credential: one is pending while it is active, or one became
active when it was retired. -/
structure Linear (db : Db) : Prop where
  once : ∀ a ∈ db.credentials.rows, ∀ b ∈ db.credentials.rows, ∀ previous,
    a.state.Live → b.state.Live → a.previousFingerprint = some previous →
    b.previousFingerprint = some previous → a = b
  replaces : ∀ row ∈ db.credentials.rows, row.state = .pending → ∀ previous,
    row.previousFingerprint = some previous →
    ∃ old ∈ db.credentials.rows, old.fingerprint = previous ∧ old.state = .active
  replaced : ∀ row ∈ db.credentials.rows, row.state = .active → ∀ previous,
    row.previousFingerprint = some previous →
    ∃ old ∈ db.credentials.rows, old.fingerprint = previous ∧ old.state = .retired

section

variable (h : Linear db)
include h

/-- The credential that a renewal is issued for is active and has no other live successor. -/
theorem Linear.renews {candidate : IssuanceCandidate} {kind : PresentedTokenKind}
    (hOnce : renewsOnce db (.commitIssuance candidate nowUnix) = true)
    (hIssues : Issues db current candidate nowUnix kind db' current')
    (hKind : kind.previous = some previous) :
    (∃ old ∈ db.credentials.rows, old.fingerprint = previous ∧ old.state = .active) ∧
      ∀ row ∈ db.credentials.rows, row.previousFingerprint = some previous → ¬row.state.Live := by
  obtain rfl : kind = .renewal previous := by
    cases kind with
    | bootstrap => cases hKind
    | renewal => exact congrArg _ (Option.some.inj hKind)
  obtain ⟨-, -, old, hOld, hFingerprint, -, -, -, hActive⟩ :=
    authenticateToken_renewal hIssues.authenticated
  refine ⟨⟨old, hOld, hFingerprint, hActive⟩, fun row hRow hSuccessor hLive => ?_⟩
  rcases hLive with hPending | hRowActive
  · simp only [renewsOnce, hIssues.authenticated, all_eq_true, decide_eq_true_eq] at hOnce
    exact (hIssues.apart hRow).2 (hOnce row hRow hPending hSuccessor)
  · obtain ⟨_, hOld', hFingerprint', hRetired⟩ :=
      h.replaced row hRow hRowActive previous hSuccessor
    obtain rfl := eq_of_fingerprint hOld hOld' (hFingerprint.trans hFingerprint'.symm)
    rw [hActive] at hRetired
    cases hRetired

variable (hEffect : Effect db current op reply db' current')
include hEffect

theorem Linear.once_effect (hOnce : renewsOnce db op = true) {a b : Credential}
    (ha : a ∈ db'.credentials.rows) (hb : b ∈ db'.credentials.rows) (hLiveA : a.state.Live)
    (hLiveB : b.state.Live) (hPreviousA : a.previousFingerprint = some previous)
    (hPreviousB : b.previousFingerprint = some previous) : a = b := by
  rcases hEffect.live_cases ha hLiveA with
    ⟨a', hOldA, hSameA, hBeforeA⟩ | ⟨_, _, _, rfl, hIssues, rfl⟩
  · rw [hSameA] at hPreviousA
    rcases hEffect.live_cases hb hLiveB with
      ⟨b', hOldB, hSameB, hBeforeB⟩ | ⟨_, _, _, rfl, hIssues, rfl⟩
    · rw [hSameB] at hPreviousB
      have hEq := h.once a' hOldA b' hOldB previous hBeforeA hBeforeB hPreviousA hPreviousB
      exact eq_of_fingerprint ha hb (by rw [hSameA, hSameB, hEq])
    · exact absurd hBeforeA ((h.renews hOnce hIssues hPreviousB).2 a' hOldA hPreviousA)
  · rcases hEffect.live_cases hb hLiveB with ⟨b', hOldB, hSameB, hBeforeB⟩ | ⟨_, _, _, hOp, -, rfl⟩
    · rw [hSameB] at hPreviousB
      exact absurd hBeforeB ((h.renews hOnce hIssues hPreviousA).2 b' hOldB hPreviousB)
    · cases hOp
      exact eq_of_fingerprint ha hb rfl

variable (hGranted : Granted db current) (hRow : row ∈ db'.credentials.rows)
  (hPrevious : row.previousFingerprint = some previous)
include hGranted hRow hPrevious

/-- While a successor is pending, its predecessor stays active. -/
theorem Linear.replaces_effect (hOnce : renewsOnce db op = true) (hPending : row.state = .pending) :
    ∃ old ∈ db'.credentials.rows, old.fingerprint = previous ∧ old.state = .active := by
  rcases hEffect.row_before hRow with ⟨before, hBefore, hChange⟩ | ⟨_, _, _, rfl, hIssues, rfl⟩
  · cases hChange with
    | same =>
      obtain ⟨old, hOld, rfl, hActive⟩ := h.replaces row hBefore hPending previous hPrevious
      obtain ⟨_, hNew, hOldChange⟩ := hEffect.row_after hOld
      cases hOldChange with
      | same => exact ⟨old, hNew, rfl, hActive⟩
      | activated => exact ⟨_, hNew, rfl, rfl⟩
      | expired hDue =>
        rw [hActive] at hDue
        cases hDue
      | retired hMem hSuccessor hSame _ hMem' =>
        -- it would have another pending successor
        obtain rfl := h.once row hBefore _ hMem old.fingerprint (.inl hPending) (.inl hSuccessor)
          hPrevious hSame
        rw [eq_of_fingerprint hRow hMem' rfl] at hPending
        cases hPending
      | revoked =>
        -- the predecessor of a pending row is never revoked
        obtain ⟨old', hOld', hReplaces⟩ := (hGranted.effect hEffect).previous row hRow _ hPrevious
        obtain rfl := eq_of_fingerprint hNew hOld'
          (Option.some.inj (hPrevious.symm.trans hReplaces.fingerprint))
        rcases hReplaces.unrevoked hPending with hState | hState <;> cases hState
    | activated | retired | expired | revoked => cases hPending
  · obtain ⟨old, hOld, hBoth⟩ := (h.renews hOnce hIssues hPrevious).1
    exact ⟨old, hIssues.mem_rows.mpr (.inl hOld), hBoth⟩

/-- The predecessor of an active row is retired with its activation, and stays so. -/
theorem Linear.replaced_effect (hActive : row.state = .active) :
    ∃ old ∈ db'.credentials.rows, old.fingerprint = previous ∧ old.state = .retired := by
  rcases hEffect.row_before hRow with ⟨before, hBefore, hChange⟩ | ⟨_, _, _, -, -, rfl⟩
  · cases hChange with
    | same =>
      obtain ⟨old, hOld, hFingerprint, hRetired⟩ :=
        h.replaced row hBefore hActive previous hPrevious
      have hTerminal : ¬old.state.Live := by simp [hRetired, CredentialState.Live]
      exact ⟨old, terminal_effect hGranted hEffect hOld hTerminal, hFingerprint, hRetired⟩
    | activated hPending hOp hReply =>
      obtain ⟨old, hOld, rfl, hOldActive⟩ := h.replaces before hBefore hPending previous hPrevious
      cases hEffect with
      | unchanged =>
        rw [eq_of_fingerprint hBefore hRow rfl] at hPending
        cases hPending
      | @activated activated _ _ _ hActivates =>
        obtain rfl := eq_of_fingerprint hActivates.mem hBefore (Op.activate.inj hOp).2.2.1
        have hNotSelf : old.fingerprint ≠ activated.fingerprint := by
          intro hEq
          rw [eq_of_fingerprint hOld hBefore hEq, hPending] at hOldActive
          cases hOldActive
        have hSuccessor : activated.previousFingerprint = some old.fingerprint := hPrevious
        refine ⟨_, hActivates.rows ▸ mem_map_of_mem hOld, by rw [activateRow_issued], ?_⟩
        simp [activateRow, hNotSelf, hSuccessor]
      | overdue => cases hReply
      | created | issued | revoked | reconciled => cases hOp
    | retired | expired | revoked => cases hActive
  · cases hActive

omit hRow hPrevious in
theorem Linear.effect (hOnce : renewsOnce db op = true) : Linear db' where
  once _ ha _ hb _ := h.once_effect hEffect hOnce ha hb
  replaces _ hRow hPending _ hPrevious :=
    h.replaces_effect hEffect hGranted hRow hPrevious hOnce hPending
  replaced _ hRow hActive _ hPrevious := h.replaced_effect hEffect hGranted hRow hPrevious hActive

end

/-! ## After an activation -/

/-- The credential `previous` is retired, and `successor` is the only one that can be or
become active in its place. -/
structure Succeeded (previous successor : CertificateFingerprint) (db : Db) : Prop where
  retired : ∃ old ∈ db.credentials.rows, old.fingerprint = previous ∧ old.state = .retired
  only : ∀ row ∈ db.credentials.rows, row.previousFingerprint = some previous →
    row.state.Live → row.fingerprint = successor

theorem Linear.succeeded (h : Linear db) (hRow : row ∈ db.credentials.rows)
    (hActive : row.state = .active) (hPrevious : row.previousFingerprint = some previous) :
    Succeeded previous row.fingerprint db := by
  refine ⟨h.replaced row hRow hActive previous hPrevious, fun other hOther hSame hLive => ?_⟩
  rw [h.once other hOther row hRow previous hLive (.inr hActive) hSame hPrevious]

theorem Succeeded.effect (h : Succeeded previous successor db) (hGranted : Granted db current)
    (hEffect : Effect db current op reply db' current') : Succeeded previous successor db' := by
  obtain ⟨old, hOld, hFingerprint, hRetired⟩ := h.retired
  have hTerminal : ¬old.state.Live := by simp [hRetired, CredentialState.Live]
  refine ⟨⟨old, terminal_effect hGranted hEffect hOld hTerminal, hFingerprint, hRetired⟩, ?_⟩
  intro _ hRow hPrevious hLive
  rcases hEffect.live_cases hRow hLive with ⟨before, hBefore, hIssued, hBeforeLive⟩ |
    ⟨candidate, now, kind, -, hIssues, rfl⟩
  · rw [hIssued] at hPrevious ⊢
    exact h.only before hBefore hPrevious hBeforeLive
  · -- a retired credential authenticates no renewal
    obtain rfl : kind = .renewal previous := by
      cases kind with
      | bootstrap => cases hPrevious
      | renewal => exact congrArg _ (Option.some.inj hPrevious)
    obtain ⟨-, -, _, hMem, hSame, -, -, -, hActive⟩ :=
      authenticateToken_renewal hIssues.authenticated
    obtain rfl := eq_of_fingerprint hOld hMem (hFingerprint.trans hSame.symm)
    rw [hRetired] at hActive
    cases hActive

/-! ## Descendants of a bootstrap token -/

/-- The credentials that descend from one bootstrap token: the one that was issued for it,
and the renewals of those that descend from it. -/
inductive Descends (db : Db) (tokenHash : TokenHash) : IssuedCredential → Prop
  | root {issued} (hMem : issued ∈ db.issued) (hRoot : issued.previousFingerprint = none)
      (hToken : issued.authTokenHash = tokenHash) : Descends db tokenHash issued
  | renewal {old issued} (hOld : Descends db tokenHash old) (hMem : issued ∈ db.issued)
      (hPrevious : issued.previousFingerprint = some old.fingerprint) :
      Descends db tokenHash issued

variable {issued : IssuedCredential}

theorem Descends.mem (h : Descends db tokenHash issued) :
    issued ∈ db.issued := by
  cases h <;> assumption

theorem issued_eq_of_fingerprint {a b : IssuedCredential} (ha : a ∈ db.issued)
    (hb : b ∈ db.issued) (hSame : a.fingerprint = b.fingerprint) : a = b := by
  obtain ⟨_, hRowA, rfl⟩ := mem_issued.mp ha
  obtain ⟨_, hRowB, rfl⟩ := mem_issued.mp hb
  rw [eq_of_fingerprint hRowA hRowB hSame]

/-- Descent is settled when a credential is issued. -/
theorem Descends.before (hGranted : Granted db current)
    (hEffect : Effect db current op reply db' current') (h : Descends db' tokenHash issued)
    (hMem : issued ∈ db.issued) : Descends db tokenHash issued := by
  induction h with
  | root _ hRoot hToken => exact .root hMem hRoot hToken
  | @renewal old issued hOld _ hPrevious ih =>
    obtain ⟨row, hRow, rfl⟩ := mem_issued.mp hMem
    obtain ⟨before, hBefore, hReplaces⟩ := hGranted.previous row hRow _ hPrevious
    have hBeforeMem : before.toIssuedCredential ∈ db.issued := mem_issued.mpr ⟨before, hBefore, rfl⟩
    have hSame : old.fingerprint = before.fingerprint :=
      Option.some.inj (hPrevious.symm.trans hReplaces.fingerprint)
    obtain rfl := issued_eq_of_fingerprint hOld.mem (hEffect.issued_mono hBeforeMem) hSame
    exact .renewal (ih hBeforeMem) hMem hPrevious

/-- Of the credentials that descend from one token, one is active. -/
def SoleActive (db : Db) : Prop :=
  ∀ tokenHash, ∀ a ∈ db.credentials.rows, ∀ b ∈ db.credentials.rows,
    Descends db tokenHash a.toIssuedCredential → Descends db tokenHash b.toIssuedCredential →
    a.state = .active → b.state = .active → a = b

/-- A pending credential without a predecessor is all that descends from its token. -/
theorem descends_pending_root (hGranted : Granted db current)
    (hBooked : Booked db) (hRow : row ∈ db.credentials.rows) (hPending : row.state = .pending)
    (hRoot : row.previousFingerprint = none) (hToken : row.authTokenHash = tokenHash)
    (h : Descends db tokenHash issued) : issued = row.toIssuedCredential := by
  have hMem : row.toIssuedCredential ∈ db.issued := mem_issued.mpr ⟨row, hRow, rfl⟩
  induction h with
  | root hIssued hRoot' hToken' =>
    exact hBooked.once _ hIssued _ hMem hRoot' hRoot (hToken'.trans hToken.symm)
  | renewal _ hIssued hPrevious ih =>
    -- its renewal would have been issued while it was active
    obtain ⟨renewal, hRenewal, rfl⟩ := mem_issued.mp hIssued
    obtain ⟨old, hOld, hReplaces⟩ := hGranted.previous renewal hRenewal _ hPrevious
    rw [ih] at hPrevious
    have hSame : old.fingerprint = row.fingerprint :=
      Option.some.inj (hReplaces.fingerprint.symm.trans hPrevious)
    rw [← eq_of_fingerprint hOld hRow hSame] at hPending
    exact absurd hPending hReplaces.activated

/-- The active relative of a credential that is activated is its predecessor. -/
theorem SoleActive.predecessor {active : Credential} (h : SoleActive db) (hLinear : Linear db)
    (hGranted : Granted db current) (hBooked : Booked db) (hRow : row ∈ db.credentials.rows)
    (hPending : row.state = .pending) (hActive : active ∈ db.credentials.rows)
    (hState : active.state = .active) (hDescends : Descends db tokenHash row.toIssuedCredential)
    (hRelative : Descends db tokenHash active.toIssuedCredential) :
    some active.fingerprint = row.previousFingerprint := by
  cases hDescends with
  | root _ hRoot hToken =>
    have hSame := descends_pending_root hGranted hBooked hRow hPending hRoot hToken hRelative
    have hEq := eq_of_fingerprint hActive hRow (congrArg (·.fingerprint) hSame)
    rw [hEq, hPending] at hState
    cases hState
  | @renewal old _ hOld _ hPrevious =>
    obtain ⟨before, hBefore, hFingerprint, hBeforeActive⟩ :=
      hLinear.replaces row hRow hPending _ hPrevious
    obtain rfl := issued_eq_of_fingerprint hOld.mem (mem_issued.mpr ⟨before, hBefore, rfl⟩)
      hFingerprint.symm
    rw [h tokenHash active hActive before hBefore hRelative hOld hState hBeforeActive, hPrevious]

theorem SoleActive.activates (h : SoleActive db) (hLinear : Linear db)
    (hGranted : Granted db current) (hBooked : Booked db)
    (hActivates : Activates db current activated db' current')
    (hBefore : ∀ tokenHash, ∀ row ∈ db.credentials.rows,
      Descends db' tokenHash row.toIssuedCredential →
        Descends db tokenHash row.toIssuedCredential) : SoleActive db' := by
  intro tokenHash _ ha' _ hb' hDescendsA hDescendsB hActiveA hActiveB
  rw [hActivates.rows] at ha' hb'
  obtain ⟨a, ha, rfl⟩ := mem_map.mp ha'
  obtain ⟨b, hb, rfl⟩ := mem_map.mp hb'
  rw [activateRow_issued] at hDescendsA hDescendsB
  have hDescendsA := hBefore tokenHash a ha hDescendsA
  have hDescendsB := hBefore tokenHash b hb hDescendsB
  -- an active row is the activated one, or was active and is not the predecessor
  have hCases : ∀ row ∈ db.credentials.rows, (activateRow activated row).state = .active →
      row = activated ∨
        row.state = .active ∧ some row.fingerprint ≠ activated.previousFingerprint := by
    intro row hRow hActive
    rcases activateRow_state activated row with ⟨hSelf, -⟩ | ⟨-, hRetired⟩ | ⟨-, hNot, hSame⟩
    · exact .inl (eq_of_fingerprint hRow hActivates.mem hSelf)
    · rw [hActive] at hRetired
      cases hRetired
    · exact .inr ⟨hSame ▸ hActive, hNot⟩
  have hPredecessor : ∀ row ∈ db.credentials.rows, row.state = .active →
      Descends db tokenHash activated.toIssuedCredential →
      Descends db tokenHash row.toIssuedCredential →
      some row.fingerprint = activated.previousFingerprint :=
    fun row hRow hState hDescends hRelative => h.predecessor hLinear hGranted hBooked
      hActivates.mem hActivates.pending hRow hState hDescends hRelative
  rcases hCases a ha hActiveA with rfl | ⟨hStateA, hNotA⟩
  · rcases hCases b hb hActiveB with rfl | ⟨hStateB, hNotB⟩
    · rfl
    · exact absurd (hPredecessor b hb hStateB hDescendsA hDescendsB) hNotB
  · rcases hCases b hb hActiveB with rfl | ⟨hStateB, -⟩
    · exact absurd (hPredecessor a ha hStateA hDescendsB hDescendsA) hNotA
    · rw [h tokenHash a ha b hb hDescendsA hDescendsB hStateA hStateB]

/-- Without an activation, what is active was active before. -/
theorem Effect.active_cases (h : Effect db current op reply db' current') :
    (∃ activated, Activates db current activated db' current') ∨
      ∀ row ∈ db'.credentials.rows, row.state = .active → ∃ old ∈ db.credentials.rows,
          row.toIssuedCredential = old.toIssuedCredential ∧ old.state = .active := by
  have hBefore := fun row (hRow : row ∈ db'.credentials.rows) => h.row_before hRow
  cases h with
  | unchanged => exact .inr fun row hRow hActive => ⟨row, hRow, rfl, hActive⟩
  | activated hActivates => exact .inl ⟨_, hActivates⟩
  | created | issued | overdue | revoked | reconciled =>
    refine .inr fun row hRow hActive => ?_
    rcases hBefore row hRow with ⟨old, hOld, hChange⟩ | ⟨_, _, _, -, -, rfl⟩
    · cases hChange with
      | same => exact ⟨row, hOld, rfl, hActive⟩
      | activated _ hOp hReply => first | cases hOp | cases hReply
      | _ => cases hActive
    · cases hActive

theorem SoleActive.effect (h : SoleActive db) (hLinear : Linear db)
    (hGranted : Granted db current) (hBooked : Booked db)
    (hEffect : Effect db current op reply db' current') : SoleActive db' := by
  have hBefore : ∀ tokenHash, ∀ row ∈ db.credentials.rows,
      Descends db' tokenHash row.toIssuedCredential →
        Descends db tokenHash row.toIssuedCredential := fun _ row hRow hDescends =>
    hDescends.before hGranted hEffect (mem_issued.mpr ⟨row, hRow, rfl⟩)
  rcases hEffect.active_cases with ⟨_, hActivates⟩ | hActive
  · exact h.activates hLinear hGranted hBooked hActivates hBefore
  · intro tokenHash a ha b hb hDescendsA hDescendsB hActiveA hActiveB
    obtain ⟨oldA, hOldA, hIssuedA, hStateA⟩ := hActive a ha hActiveA
    obtain ⟨oldB, hOldB, hIssuedB, hStateB⟩ := hActive b hb hActiveB
    rw [hIssuedA] at hDescendsA
    rw [hIssuedB] at hDescendsB
    have hOld := h tokenHash oldA hOldA oldB hOldB (hBefore tokenHash oldA hOldA hDescendsA)
      (hBefore tokenHash oldB hOldB hDescendsB) hStateA hStateB
    refine eq_of_fingerprint ha hb ?_
    rw [hIssuedA, hIssuedB, hOld]

/-! ## Every run that renews once -/

/-- The invariant of such runs. -/
structure Renewed (db : Db) : Prop where
  linear : Linear db
  booked : Booked db
  sole : SoleActive db

theorem renewed_empty (hEmpty : db.credentials.rows = []) : Renewed db :=
  ⟨by constructor <;> simp [hEmpty], booked_empty hEmpty, fun _ a ha => by simp [hEmpty] at ha⟩

theorem renewed_run {ops : List Op} (h : Reached sha256 db) (hRenewed : Renewed db)
    (hOnce : Guarded (step sha256) (fun db op => renewsOnce db op = true) db ops)
    (hRun : exec (step sha256) db ops = some db') :
    Reached sha256 db' ∧ Renewed db' := by
  refine reached_run (fun _ => renewed_empty) ?_ h hRenewed hOnce hRun
  intro _ _ _ _ _ _ hOp hGranted hRenewed hEffect
  exact ⟨hRenewed.linear.effect hEffect hGranted hOp, hRenewed.booked.effect hEffect,
    hRenewed.sole.effect hRenewed.linear hGranted hRenewed.booked hEffect⟩

theorem succeeded_run {ops : List Op} (h : Reached sha256 db)
    (hSucceeded : Succeeded previous successor db) (hRun : exec (step sha256) db ops = some db') :
    Succeeded previous successor db' := by
  obtain ⟨_, hOld, -⟩ := hSucceeded.retired
  exact sound_keeps (fun hGranted hBefore hEffect => hBefore.effect hGranted hEffect)
    (h.sound hOld) hSucceeded hRun

/-- **Renewal replaces, as long as one renewal of a credential is pending at a time.** Take
any run from an empty table of credentials in which no renewal is committed while one
from another request is pending. At most one successor of a credential is active at any
moment of the run; a pending successor is activated only while its predecessor is active;
and at most one credential that descends from a bootstrap token is active. -/
theorem renewal_replaces {db₀ : Db} {ops : List Op} (hEmpty : db₀.credentials.rows = [])
    (hOnce : Guarded (step sha256) (fun db op => renewsOnce db op = true) db₀ ops)
    (hRun : exec (step sha256) db₀ ops = some db) :
    (∀ earlier later db₁, ops = earlier ++ later →
      exec (step sha256) db₀ earlier = some db₁ →
      ∀ a ∈ db₁.credentials.rows, ∀ b ∈ db.credentials.rows, ∀ previous,
        a.previousFingerprint = some previous → b.previousFingerprint = some previous →
        a.state = .active → b.state = .active → a.fingerprint = b.fingerprint) ∧
    (∀ row ∈ db.credentials.rows, row.state = .pending → ∀ previous,
      row.previousFingerprint = some previous → ∀ nowUnix version db',
      run sha256 db (.activate row.requestId row.renewalTokenHash row.fingerprint nowUnix) =
        (.ok version, db') →
      ∃ old ∈ db.credentials.rows, old.fingerprint = previous ∧ old.state = .active) ∧
    ∀ tokenHash, ∀ a ∈ db.credentials.rows, ∀ b ∈ db.credentials.rows,
      Descends db tokenHash a.toIssuedCredential → Descends db tokenHash b.toIssuedCredential →
      a.state = .active → b.state = .active → a = b := by
  obtain ⟨-, hRenewed⟩ := renewed_run (reached_init hEmpty) (renewed_empty hEmpty) hOnce hRun
  refine ⟨?_, ?_, hRenewed.sole⟩
  · rintro _ _ _ rfl hEarlier _ ha b hb _ hPreviousA hPreviousB hActiveA hActiveB
    obtain ⟨_, hEarlier', hLater⟩ := exec_append.mp hRun
    obtain rfl := Option.some.inj (hEarlier.symm.trans hEarlier')
    obtain ⟨hReached, hRenewed₁⟩ :=
      renewed_run (reached_init hEmpty) (renewed_empty hEmpty) hOnce.init hEarlier
    have hSucceeded := hRenewed₁.linear.succeeded ha hActiveA hPreviousA
    have hLast := succeeded_run hReached hSucceeded hLater
    exact (hLast.only b hb hPreviousB (.inr hActiveB)).symm
  · intro row hRow hPending previous hPrevious _ _ _ _
    exact hRenewed.linear.replaces row hRow hPending previous hPrevious

namespace EnrollmentExample

/-- The first credential is renewed twice before the first renewal is activated. -/
def renewedTwice : List Op :=
  enrolled ++ [.commitIssuance (attempt 2 101) 12, .commitIssuance (attempt 3 101) 12,
    activation 2 13]

/-- The states, with the predecessors. -/
def lineage (db : Db) : List (CredentialState × Option CertificateFingerprint) :=
  db.credentials.rows.map fun row => (row.state, row.previousFingerprint)

end EnrollmentExample

open EnrollmentExample in
/-- The second renewal is activated when its predecessor is retired, and then both
renewals of the first credential are active. -/
theorem renewal_multiplies :
    ∃ db db' version, exec (step digest) initial renewedTwice = some db ∧
      lineage db = [(.retired, none), (.active, some (filled 1)), (.pending, some (filled 1))] ∧
      run digest db (activation 3 14) = (.ok (.activated version), db') ∧
      lineage db' = [(.retired, none), (.active, some (filled 1)), (.active, some (filled 1))] := by
  obtain ⟨db, hdb, hBefore, hReply, hAfter⟩ : ∃ db,
      exec (step digest) initial renewedTwice = some db ∧
      lineage db = [(.retired, none), (.active, some (filled 1)), (.pending, some (filled 1))] ∧
      (run digest db (activation 3 14)).1 = .ok (.activated ⟨6, by decide, by decide⟩) ∧
      lineage (run digest db (activation 3 14)).2 =
        [(.retired, none), (.active, some (filled 1)), (.active, some (filled 1))] := by
    decide +kernel
  exact ⟨db, _, _, hdb, hBefore, Prod.ext hReply rfl, hAfter⟩

open EnrollmentExample in
/-- One renewal at a time: the descendants of the token are the two credentials, and the
second is the active one. -/
theorem renewal_replaces_renewed : ∃ db, exec (step digest) initial renewed = some db ∧
      lineage db = [(.retired, none), (.active, some (filled 1))] ∧
      ∀ a ∈ db.credentials.rows, ∀ b ∈ db.credentials.rows,
        Descends db (filled 200) a.toIssuedCredential →
        Descends db (filled 200) b.toIssuedCredential →
        a.state = .active → b.state = .active → a = b := by
  obtain ⟨db, hdb, hLineage⟩ : ∃ db, exec (step digest) initial renewed = some db ∧
      lineage db = [(.retired, none), (.active, some (filled 1))] := by decide +kernel
  have hOnce : Guarded (step digest) (fun db op => renewsOnce db op = true) initial
      renewed := by decide +kernel
  obtain ⟨-, -, hSole⟩ := renewal_replaces rfl hOnce hdb
  exact ⟨db, hdb, hLineage, hSole (filled 200)⟩

end TunnelProxy.Control.Enrollment
