import TunnelProxy.Agent.Answers

/-!
# The rotation can always be taken up again

Whatever happens between two steps of `rotate` — a crash, a lost response, an expiry, the
work of others — the files and the repository stay in agreement, so that the next call is
understood by the server. `Recoverable` says what the files, the requests at the server and
the call in progress are worth; every step keeps it, and it leaves no place for a code that
would end the rotation for good.

* `Backed` — where a request at the server comes from
* `Stage` — what a call can rely on between two of its steps
* `Recoverable.step` — every step keeps the agreement
* `rotate_recovers` — after the first activation no call is rejected for good, and a call
  that succeeds leaves the token of the active credential and no journal
-/

namespace TunnelProxy.Agent

open Common Control Control.Enrollment Rotation Transition List Option

variable {sha256 : Hash} {config : AgentEnrollmentConfig}
  {fingerprintOf : List UInt8 → Option CertificateFingerprint} {drawn : List PendingEnrollment}
  {db db' : Db} {token? token?' : Option EnrollmentToken}
  {journal? journal?' : Option PendingEnrollment} {pending : PendingEnrollment}
  {late activated refreshed : Bool} {exchanges exchanges' : List Exchange}
  {id nowUnix activationDeadlineUnix notAfterUnix : Nat} {s s' : Rotation}
  {phase : RotatePhase} {files : AgentFiles} {response : EnrollmentResponse} {exchange : Exchange}
  {file : BundleFile} {serverCaPem certificatePem : List UInt8} {enrollment : IssuedEnrollment}
  {fingerprint : CertificateFingerprint}

/-! ## Requests at the server -/

/-- Where a request at the server comes from. An `Enroll` that has no row yet is the one of
the files. -/
inductive Backed (config : AgentEnrollmentConfig) (drawn : List PendingEnrollment) (db : Db)
    (token? : Option EnrollmentToken) (journal? : Option PendingEnrollment) :
    EnrollmentRequest → Prop
  | enroll {pending : PendingEnrollment} {token : EnrollmentToken} (mem : pending ∈ drawn)
      (known : journal? = some pending ∧ token? = some token ∨ pending.Issued db) :
      Backed config drawn db token? journal? (.enroll pending.requestId token pending.nextToken
        config.agentId config.tunnelId pending.csrDer)
  | activate {pending : PendingEnrollment} {issued : IssuedCredential} (mem : pending ∈ drawn)
      (issued_mem : issued ∈ db.issued) (requestId : issued.requestId = pending.requestId) :
      Backed config drawn db token? journal?
        (.activate pending.requestId pending.nextToken issued.fingerprint)

theorem Backed.mono {request : EnrollmentRequest}
    (h : Backed config drawn db token? journal? request)
    (hIssued : ∀ issued ∈ db.issued, issued ∈ db'.issued) :
    Backed config drawn db' token? journal? request := by
  cases h with
  | enroll hMem hKnown =>
    exact .enroll hMem (hKnown.imp_right fun ⟨issued, hOld, hId⟩ => ⟨issued, hIssued _ hOld, hId⟩)
  | activate hMem hOld hId => exact .activate hMem (hIssued _ hOld) hId

theorem Backed.draw {request : EnrollmentRequest}
    (h : Backed config drawn db token? journal? request) :
    Backed config (pending :: drawn) db token? journal? request := by
  cases h with
  | enroll hMem hKnown => exact .enroll (mem_cons_of_mem _ hMem) hKnown
  | activate hMem hOld hId => exact .activate (mem_cons_of_mem _ hMem) hOld hId

/-- The files may change when the request in the journal has its row. -/
theorem Backed.replace {request : EnrollmentRequest}
    (h : Backed config drawn db token? journal? request)
    (hIssued : ∀ p t, journal? = some p → token? = some t → p.Issued db) :
    Backed config drawn db token?' journal?' request := by
  cases h with
  | enroll hMem hKnown =>
    refine .enroll hMem (.inr ?_)
    rcases hKnown with ⟨hJournal, hToken⟩ | hKnown
    · exact hIssued _ _ hJournal hToken
    · exact hKnown
  | activate hMem hOld hId => exact .activate hMem hOld hId

/-! ## The call in progress -/

/-- A request that no one but the Agent knows. -/
structure New (drawn : List PendingEnrollment) (db : Db) (token? : Option EnrollmentToken)
    (pending : PendingEnrollment) : Prop where
  mem : pending ∈ drawn
  fits : pending.Fits
  absent : ¬pending.Issued db
  token : token? ≠ some pending.nextToken

/-- What a call of `rotate` can rely on before each of its steps. -/
def Stage (config : AgentEnrollmentConfig) (drawn : List PendingEnrollment) (db : Db)
    (token? : Option EnrollmentToken) (journal? : Option PendingEnrollment) (late : Bool)
    (exchanges : List Exchange) : RotatePhase → Prop
  | .idle | .reading => True
  | .loading token => token? = some token
  | .creating token => token? = some token ∧ journal? = none
  | .journaling token pending =>
    token? = some token ∧ journal? = none ∧ New drawn db token? pending
  | .ready token pending => token? = some token ∧ journal? = some pending
  | .completing => ∃ pending, journal? = some pending ∧ token? = some pending.nextToken
  | .enrolling token pending exchange none =>
    token? = some token ∧ journal? = some pending ∧ token ≠ pending.nextToken ∧
      ∀ e ∈ exchanges, e.id = exchange → e.request = .enroll pending.requestId token
        pending.nextToken config.agentId config.tunnelId pending.csrDer
  | .enrolling _ pending _ (some response) =>
    journal? = some pending ∧ Answered db late pending response
  | .expired => ∀ pending, journal? = some pending → pending.Has db .expired
  | .replacing pending =>
    New drawn db token? pending ∧ ∀ old, journal? = some old → old.Has db .expired
  | .publishing pending issued _ | .reloading pending issued =>
    journal? = some pending ∧ issued.requestId = pending.requestId ∧ Certified db pending issued
  | .activating pending issued exchange none =>
    journal? = some pending ∧ issued.requestId = pending.requestId ∧ Certified db pending issued ∧
      ∀ e ∈ exchanges, e.id = exchange →
        e.request = .activate issued.requestId pending.nextToken issued.fingerprint
  | .activating pending _ _ (some response) =>
    journal? = some pending ∧ Answered db late pending response
  | .storing pending _ => journal? = some pending ∧ pending.Has db .active
  | .clearing pending _ =>
    journal? = some pending ∧ pending.Has db .active ∧ token? = some pending.nextToken

theorem Certified.mono (h : Certified db pending enrollment)
    (hGrows : Grows drawn journal? db db') :
    Certified db' pending enrollment := by
  obtain ⟨issued, hIssued, hSame⟩ := h
  exact ⟨issued, hGrows.issued issued hIssued, hSame⟩

theorem Answered.mono (h : Answered db late pending response)
    (hGrows : Grows drawn (some pending) db db') : Answered db' late pending response := by
  cases response with
  | issued => exact Certified.mono h hGrows
  | activated => exact hGrows.active pending rfl h
  | error => exact h.imp_right fun hExpired hCode => hGrows.expired pending (hExpired hCode)

theorem New.mono (h : New drawn db token? pending) (hGrows : Grows drawn journal? db db')
    (hJournal : journal? ≠ some pending) : New drawn db' token? pending :=
  { h with absent := hGrows.absent pending h.mem hJournal h.absent }

/-- `request` is the `Enroll` that a call sends for the token and the journal of its files. -/
structure Enrolls (config : AgentEnrollmentConfig) (token? : Option EnrollmentToken)
    (journal? : Option PendingEnrollment) (request : EnrollmentRequest) (token : EnrollmentToken)
    (pending : PendingEnrollment) : Prop where
  holds : token? = some token
  journal : journal? = some pending
  next : token ≠ pending.nextToken
  sent : request = .enroll pending.requestId token pending.nextToken config.agentId
    config.tunnelId pending.csrDer

section

variable (h : Stage config drawn db token? journal? late exchanges phase)
include h

/-- Others may work on the repository between two steps. -/
theorem Stage.mono (hGrows : Grows drawn journal? db db') :
    Stage config drawn db' token? journal? late exchanges phase := by
  cases phase with
  | idle | reading => trivial
  | loading | creating | ready | completing => exact h
  | journaling =>
    obtain ⟨hToken, hJournal, hNew⟩ := h
    exact ⟨hToken, hJournal, hNew.mono hGrows (by simp [hJournal])⟩
  | enrolling _ _ _ response =>
    cases response with
    | none => exact h
    | some =>
      obtain ⟨rfl, hAnswered⟩ := h
      exact ⟨rfl, hAnswered.mono hGrows⟩
  | expired => exact fun pending hJournal => hGrows.expired pending (h pending hJournal)
  | replacing pending =>
    obtain ⟨hNew, hOld⟩ := h
    refine ⟨hNew.mono hGrows fun hJournal => ?_, fun old hJournal =>
      hGrows.expired old (hOld old hJournal)⟩
    exact hNew.absent (hOld pending hJournal).issued
  | publishing | reloading =>
    obtain ⟨hJournal, hId, hCertified⟩ := h
    exact ⟨hJournal, hId, hCertified.mono hGrows⟩
  | activating _ _ _ response =>
    cases response with
    | none =>
      obtain ⟨hJournal, hId, hCertified, hRequest⟩ := h
      exact ⟨hJournal, hId, hCertified.mono hGrows, hRequest⟩
    | some =>
      obtain ⟨rfl, hAnswered⟩ := h
      exact ⟨rfl, hAnswered.mono hGrows⟩
  | storing pending =>
    obtain ⟨rfl, hActive⟩ := h
    exact ⟨rfl, hGrows.active pending rfl hActive⟩
  | clearing pending =>
    obtain ⟨rfl, hActive, hToken⟩ := h
    exact ⟨rfl, hGrows.active pending rfl hActive, hToken⟩

/-- Requests may be lost, or looked up. -/
theorem Stage.subset
    (hOld : ∀ e ∈ exchanges', ∃ old ∈ exchanges, old.id = e.id ∧ old.request = e.request) :
    Stage config drawn db token? journal? late exchanges' phase := by
  have hKept : ∀ {id request}, (∀ e ∈ exchanges, e.id = id → e.request = request) →
      ∀ e ∈ exchanges', e.id = id → e.request = request := by
    intro _ _ hAll e he hId
    obtain ⟨old, hMem, hSameId, hSame⟩ := hOld e he
    rw [← hSame]
    exact hAll old hMem (hSameId.trans hId)
  cases phase with
  | enrolling _ _ _ response | activating _ _ _ response =>
    cases response with
    | none => exact ⟨h.1, h.2.1, h.2.2.1, hKept h.2.2.2⟩
    | some => exact h
  | _ => exact h

/-- The response reaches a call that waits for it. -/
theorem Stage.answered (hMem : exchange ∈ exchanges)
    (hEnroll : ∀ token pending, Enrolls config token? journal? exchange.request token pending →
      Answered db late pending response)
    (hActivate : ∀ pending issued, journal? = some pending →
      issued.requestId = pending.requestId → Certified db pending issued →
      exchange.request = .activate issued.requestId pending.nextToken issued.fingerprint →
      Answered db late pending response) :
    Stage config drawn db token? journal? late exchanges
      (phase.answered exchange.id response) := by
  cases phase with
  | enrolling token pending _ response' =>
    cases response' with
    | none =>
      unfold RotatePhase.answered
      dsimp only
      split_ifs with hId
      · obtain ⟨hToken, hJournal, hNext, hRequest⟩ := h
        exact ⟨hJournal, hEnroll token pending
          ⟨hToken, hJournal, hNext, hRequest exchange hMem hId.symm⟩⟩
      · exact h
    | some => exact h
  | activating pending issued _ response' =>
    cases response' with
    | none =>
      unfold RotatePhase.answered
      dsimp only
      split_ifs with hId
      · obtain ⟨hJournal, hIssued, hCertified, hRequest⟩ := h
        exact ⟨hJournal, hActivate pending issued hJournal hIssued hCertified
          (hRequest exchange hMem hId.symm)⟩
      · exact h
    | some => exact h
  | _ => exact h

end

/-! ## The invariant -/

/-- The token file holds the provisioned token or one that the Agent drew. -/
def Known (s : Rotation) (files : AgentFiles) : Prop :=
  ∀ token, files.token? = some token → s.bootstrap = some token ∨ ∃ p ∈ s.drawn, p.nextToken = token

structure Recoverable (sha256 : Hash) (config : AgentEnrollmentConfig) (s : Rotation) : Prop where
  ledger : Ledger sha256 config s.drawn s.db
  agrees : Agrees sha256 s.drawn s.db s.files.token? s.files.journal? s.activated
  known : Known s s.files
  backed : ∀ e ∈ s.exchanges, Backed config s.drawn s.db s.files.token? s.files.journal? e.request
  ids : ∀ e ∈ s.exchanges, e.id < s.nextExchange
  late : s.late = true → s.activated = true
  stage : Stage config s.drawn s.db s.files.token? s.files.journal? s.late s.exchanges s.phase
  idle : s.ended ≠ none → s.phase = .idle
  returned : ∀ generation, s.ended = some (.ok generation) →
    s.files.pending = none ∧ s.activated = true
  rejected : s.late = true → ∀ code, s.ended = some (.error (.rejected code)) →
    code.isTerminal = false

theorem recoverable_start {tokenFile : List UInt8} (hEmpty : db.credentials.rows = []) :
    Recoverable sha256 config (start db tokenFile) where
  ledger := ⟨reached_init hEmpty, booked_empty hEmpty, by simp [start], by simp [start],
    by simp [start], by simp [start], by simp [start]⟩
  agrees := by constructor <;> simp [start, AgentFiles.journal?, PendingEnrollment.Has, hEmpty]
  known := fun token hToken => .inl hToken
  backed := by simp [start]
  ids := by simp [start]
  late := fun h => h
  stage := trivial
  idle := fun _ => rfl
  returned := nofun
  rejected := nofun

section

variable (h : Recoverable sha256 config s)
include h

theorem Recoverable.running (hPhase : s.phase ≠ .idle) :
    s.ended = none := by
  by_contra hEnded
  exact hPhase (h.idle hEnded)

theorem Recoverable.stageAt (hPhase : s.phase = phase) :
    Stage config s.drawn s.db s.files.token? s.files.journal? s.late s.exchanges phase :=
  hPhase ▸ h.stage

theorem Recoverable.move (hPhase : s.phase ≠ .idle)
    (hStage : Stage config s.drawn s.db s.files.token? s.files.journal? s.late s.exchanges phase) :
    Recoverable sha256 config { s with phase } :=
  { h with stage := hStage, idle := fun hEnded => absurd (h.running hPhase) hEnded }

theorem Recoverable.finish {result : Except AgentEnrollmentError Nat}
    (hReturned : ∀ generation, result = .ok generation →
      s.files.pending = none ∧ s.activated = true)
    (hRejected : s.late = true → ∀ code, result = .error (.rejected code) →
      code.isTerminal = false) :
    Recoverable sha256 config (s.finish result) :=
  { h with
    stage := trivial
    idle := fun _ => rfl
    returned := fun generation hEnded => hReturned generation (Option.some.inj hEnded)
    rejected := fun hLate code hEnded => hRejected hLate code (Option.some.inj hEnded) }

/-- A call that fails on its own. -/
theorem Recoverable.fail {error : AgentEnrollmentError}
    (hError : error.isRejection = false) : Recoverable sha256 config (s.finish (.error error)) := by
  refine h.finish nofun fun _ code hCode => ?_
  cases hCode
  cases hError

/-- A step that changes the files. -/
theorem Recoverable.replace (hPhase : s.phase ≠ .idle)
    (hAgrees : Agrees sha256 s.drawn s.db files.token? files.journal? s.activated)
    (hKnown : Known s files)
    (hIssued : ∀ p t, s.files.journal? = some p → s.files.token? = some t → p.Issued s.db)
    (hStage : Stage config s.drawn s.db files.token? files.journal? s.late s.exchanges phase) :
    Recoverable sha256 config { s with files, phase } :=
  { h with
    agrees := hAgrees
    known := hKnown
    backed := fun e he => (h.backed e he).replace hIssued
    stage := hStage
    idle := fun hEnded => absurd (h.running hPhase) hEnded
    returned := fun generation hEnded => by
      rw [h.running hPhase] at hEnded
      cases hEnded }

/-! ## Steps of the Agent -/

/-- The journal goes. -/
theorem Recoverable.removeJournal (hPhase : s.phase ≠ .idle)
    (hState : ∀ p, s.files.journal? = some p →
      p.Has s.db .expired ∨ p.Has s.db .active ∧ s.files.token? = some p.nextToken)
    (hStage : Stage config s.drawn s.db s.files.token? none s.late s.exchanges phase) :
    Recoverable sha256 config { s with files := { s.files with pending := none }, phase } := by
  refine h.replace hPhase (h.agrees.remove hState) h.known (fun p t hJournal _ => ?_) hStage
  rcases hState p hJournal with hExpired | ⟨hActive, -⟩
  · exact hExpired.issued
  · exact hActive.issued

/-- A new journal is written. -/
theorem Recoverable.writeJournal (hPhase : s.phase ≠ .idle)
    (hNone : s.files.journal? = none) (hNew : New s.drawn s.db s.files.token? pending)
    (hStage : Stage config s.drawn s.db s.files.token? (some pending) s.late s.exchanges phase) :
    Recoverable sha256 config
      { s with files := { s.files with pending := some (encodePending pending) }, phase } := by
  have hJournal : AgentFiles.journal? { s.files with pending := some (encodePending pending) } =
      some pending := by
    simp only [AgentFiles.journal?, bind_some, decodePending_encode hNew.fits]
    rfl
  have hAgrees := h.agrees
  rw [hNone] at hAgrees
  refine h.replace hPhase ?_ h.known (fun p t hOld _ => ?_) ?_
  · rw [hJournal]
    exact hAgrees.put hNew.mem hNew.absent hNew.token
  · rw [hNone] at hOld
    cases hOld
  · rw [hJournal]
    exact hStage

/-- The token file is removed, or holds the next token. -/
theorem Recoverable.storeToken {file : Option (List UInt8)}
    (hPhase : s.phase ≠ .idle) (hJournal : s.files.journal? = some pending)
    (hActive : pending.Has s.db .active)
    (hToken : ∀ t, AgentFiles.token? { s.files with token := file } = some t →
      t = pending.nextToken)
    (hStage : Stage config s.drawn s.db (AgentFiles.token? { s.files with token := file })
      (some pending) s.late s.exchanges phase) :
    Recoverable sha256 config { s with files := { s.files with token := file }, phase } := by
  have hAgrees := h.agrees
  rw [hJournal] at hAgrees
  have hSame : AgentFiles.journal? { s.files with token := file } = some pending := hJournal
  refine h.replace hPhase ?_ (fun t ht => ?_) (fun p t hOld _ => ?_) ?_
  · rw [hSame]
    exact hAgrees.store hActive hToken
  · exact .inr ⟨pending, hAgrees.mem pending rfl, (hToken t ht).symm⟩
  · rw [hJournal] at hOld
    cases hOld
    exact hActive.issued
  · rw [hSame]
    exact hStage

/-- The files of the bundle say nothing here. -/
theorem Recoverable.bundle (hPhase : s.phase ≠ .idle)
    (hToken : files.token? = s.files.token?) (hJournal : files.journal? = s.files.journal?)
    (hIssued : ∀ p, s.files.journal? = some p → p.Issued s.db)
    (hStage : Stage config s.drawn s.db s.files.token? s.files.journal? s.late s.exchanges
      phase) :
    Recoverable sha256 config { s with files, phase } := by
  refine h.replace hPhase ?_ (fun t ht => h.known t (hToken ▸ ht))
    (fun p _ hOld _ => hIssued p hOld) ?_
  · rw [hToken, hJournal]
    exact h.agrees
  · rw [hToken, hJournal]
    exact hStage

omit h in
theorem Certified.issued (h : Certified db pending enrollment) : pending.Issued db := by
  obtain ⟨issued, hIssued, hId, -⟩ := h
  exact ⟨issued, hIssued, hId⟩

/-- The end of a rotation whose token is stored. -/
theorem Recoverable.endJournal {generation : Nat}
    (hPhase : s.phase ≠ .idle) (hJournal : s.files.journal? = some pending)
    (hToken : s.files.token? = some pending.nextToken) :
    Recoverable sha256 config
      (Rotation.finish { s with files := { s.files with pending := none } } (.ok generation)) := by
  have hActive := h.agrees.completed pending hJournal hToken
  have hRemoved : Recoverable sha256 config
      { s with files := { s.files with pending := none }, phase := .idle } := by
    refine h.removeJournal hPhase (fun p hSame => .inr ?_) trivial
    rw [hJournal] at hSame
    cases hSame
    exact ⟨hActive, hToken⟩
  exact hRemoved.finish
    (fun _ _ => ⟨rfl, h.agrees.active pending (h.agrees.mem pending hJournal) hActive⟩)
    nofun

section

variable (hStep : s.advance sha256 = some s')
include hStep

/-- `read_token`. -/
theorem Recoverable.read (hPhase : s.phase = .reading) : Recoverable sha256 config s' := by
  rw [Rotation.advance, hPhase] at hStep
  dsimp only at hStep
  split at hStep
  · cases hStep
    exact h.fail rfl
  · rename_i hFile
    split at hStep
    · rename_i hRead
      cases hStep
      rcases readToken_eq_error hRead with rfl | rfl | rfl <;> exact h.fail rfl
    · rename_i token hRead
      cases hStep
      refine h.move (by simp [hPhase]) ?_
      show s.files.token? = some token
      simp only [AgentFiles.token?, hFile, bind_some, hRead]
      rfl

/-- `load_pending`. -/
theorem Recoverable.load {token : EnrollmentToken} (hPhase : s.phase = .loading token) :
    Recoverable sha256 config s' := by
  have hToken : s.files.token? = some token := h.stageAt hPhase
  rw [Rotation.advance, hPhase] at hStep
  dsimp only at hStep
  split at hStep
  · rename_i hFile
    cases hStep
    refine h.move (by simp [hPhase]) ⟨hToken, ?_⟩
    simp only [AgentFiles.journal?, hFile, bind_none]
  · rename_i hFile
    split at hStep
    · rename_i hDecode
      cases hStep
      obtain rfl := decodePending_eq_error hDecode
      exact h.fail rfl
    · rename_i hDecode
      cases hStep
      refine h.move (by simp [hPhase]) ⟨hToken, ?_⟩
      simp only [AgentFiles.journal?, hFile, bind_some, hDecode]
      rfl

/-- The file is removed before it is written, and a restart may come in between. -/
theorem Recoverable.replacePending (hPhase : s.phase = .replacing pending) :
    Recoverable sha256 config s' := by
  have hRunning : s.phase ≠ .idle := by simp [hPhase]
  obtain ⟨hNew, hOld⟩ := h.stageAt hPhase
  rw [Rotation.advance, hPhase] at hStep
  dsimp only at hStep
  split_ifs at hStep with hFile
  · cases hStep
    exact h.removeJournal hRunning (fun p hJournal => .inl (hOld p hJournal)) ⟨hNew, by simp⟩
  · cases hStep
    have hNone : s.files.journal? = none := by
      rw [AgentFiles.journal?, not_isSome_iff_eq_none.mp hFile, bind_none]
    have hWritten : Recoverable sha256 config { s with
        files := { s.files with pending := some (encodePending pending) }, phase := .idle } :=
      h.writeJournal hRunning hNone hNew trivial
    exact hWritten.finish nofun fun _ code hCode => (by cases hCode; rfl)

/-- A file of the bundle is written. -/
theorem Recoverable.publish (hPhase : s.phase = .publishing pending enrollment file) :
    Recoverable sha256 config s' := by
  have hRunning : s.phase ≠ .idle := by simp [hPhase]
  obtain ⟨hJournal, hId, hCertified⟩ := h.stageAt hPhase
  have hIssued : ∀ p, s.files.journal? = some p → p.Issued s.db := by
    intro _ hSame
    cases hJournal.symm.trans hSame
    exact hCertified.issued
  rw [Rotation.advance, hPhase] at hStep
  dsimp only at hStep
  split_ifs at hStep with hHas
  · cases hStep
    exact h.bundle hRunning (by cases file <;> rfl) (by cases file <;> rfl) hIssued
      ⟨hJournal, hId, hCertified⟩
  · cases hStep
    refine h.bundle hRunning (by cases file <;> rfl) (by cases file <;> rfl) hIssued ?_
    split <;> exact ⟨hJournal, hId, hCertified⟩

/-- The next token replaces the one of the file. -/
theorem Recoverable.store (hPhase : s.phase = .storing pending enrollment) :
    Recoverable sha256 config s' := by
  have hRunning : s.phase ≠ .idle := by simp [hPhase]
  obtain ⟨hJournal, hActive⟩ := h.stageAt hPhase
  rw [Rotation.advance, hPhase] at hStep
  dsimp only at hStep
  split_ifs at hStep with hFile
  · cases hStep
    exact h.storeToken hRunning hJournal hActive nofun ⟨rfl, hActive⟩
  · cases hStep
    have hStored : AgentFiles.token?
        { s.files with token := some (tokenText pending.nextToken) } = some pending.nextToken := by
      simp only [AgentFiles.token?, bind_some, readToken_tokenText]
      rfl
    refine h.storeToken hRunning hJournal hActive (fun t ht => ?_) ⟨rfl, hActive, hStored⟩
    exact (Option.some.inj (hStored.symm.trans ht)).symm

/-- The file operations of `rotate`, phase by phase. -/
theorem Recoverable.advance : Recoverable sha256 config s' := by
  cases hPhase : s.phase with
  | reading => exact h.read hStep hPhase
  | loading => exact h.load hStep hPhase
  | replacing => exact h.replacePending hStep hPhase
  | publishing => exact h.publish hStep hPhase
  | storing => exact h.store hStep hPhase
  | journaling =>
    obtain ⟨hToken, hNone, hNew⟩ := h.stageAt hPhase
    rw [Rotation.advance, hPhase] at hStep
    cases hStep
    exact h.writeJournal (by simp [hPhase]) hNone hNew ⟨hToken, rfl⟩
  | ready _ pending =>
    obtain ⟨hToken, hJournal⟩ := h.stageAt hPhase
    rw [Rotation.advance, hPhase] at hStep
    dsimp only at hStep
    split_ifs at hStep with hNext
    cases hStep
    exact h.move (by simp [hPhase]) ⟨pending, hJournal, hNext ▸ hToken⟩
  | clearing =>
    obtain ⟨hJournal, _, hToken⟩ := h.stageAt hPhase
    rw [Rotation.advance, hPhase] at hStep
    dsimp only at hStep
    split_ifs at hStep with hFile
    · cases hStep
      exact h.endJournal (by simp [hPhase]) hJournal hToken
    · cases hStep
      exact h.fail rfl
  | _ =>
    rw [Rotation.advance, hPhase] at hStep
    cases hStep

end

theorem Recoverable.complete {generation : Option Nat}
    (hStep : s.complete generation = some s') : Recoverable sha256 config s' := by
  unfold Rotation.complete at hStep
  split at hStep
  · rename_i hPhase
    obtain ⟨_, hJournal, hToken⟩ := h.stageAt hPhase
    split_ifs at hStep <;> cases hStep
    · exact h.endJournal (by simp [hPhase]) hJournal hToken
    · exact h.fail rfl
  · cases hStep

theorem Recoverable.draw
    (hStep : s.draw sha256 pending = some s') : Recoverable sha256 config s' := by
  unfold Rotation.draw at hStep
  split_ifs at hStep with hNew
  obtain ⟨hFresh, hFits⟩ := hNew
  obtain ⟨hLedger, hAbsent⟩ := h.ledger.draw hFresh
  -- the token of the file was there before the new one was drawn
  have hToken : s.files.token? ≠ some pending.nextToken := by
    intro hSame
    simp only [fresh, Bool.and_eq_true, List.all_eq_true, decide_eq_true_eq, Option.all_eq_true]
      at hFresh
    rcases h.known _ hSame with hBootstrap | ⟨q, hq, hNext⟩
    · exact hFresh.1.1.2 _ hBootstrap rfl
    · exact (hFresh.1.1.1 q hq).2 (by rw [hNext])
  have hDrawn : New (pending :: s.drawn) s.db s.files.token? pending :=
    ⟨mem_cons_self, hFits, hAbsent, hToken⟩
  have hAfter : ∀ {phase}, s.phase ≠ .idle →
      Stage config (pending :: s.drawn) s.db s.files.token? s.files.journal? s.late s.exchanges
        phase →
      Recoverable sha256 config { s with drawn := pending :: s.drawn, phase } := by
    intro _ hRunning hStage
    refine { h with
      ledger := hLedger
      agrees := h.agrees.draw hAbsent
      known := fun token hSame => ?_
      backed := fun e he => (h.backed e he).draw
      stage := hStage
      idle := fun hEnded => absurd (h.running hRunning) hEnded }
    rcases h.known token hSame with hBootstrap | ⟨q, hq, hNext⟩
    · exact .inl hBootstrap
    · exact .inr ⟨q, mem_cons_of_mem _ hq, hNext⟩
  split at hStep
  · rename_i hPhase
    obtain ⟨hSame, hNone⟩ := h.stageAt hPhase
    cases hStep
    exact hAfter (by simp [hPhase]) ⟨hSame, hNone, hDrawn⟩
  · rename_i hPhase
    cases hStep
    exact hAfter (by simp [hPhase]) ⟨hDrawn, h.stageAt hPhase⟩
  · cases hStep

/-- A new request is backed by the files, and no older one has its number. -/
theorem Recoverable.request {request : EnrollmentRequest}
    (hPhase : s.phase ≠ .idle)
    (hBacked : Backed config s.drawn s.db s.files.token? s.files.journal? request)
    (hStage : (∀ e ∈ s.exchanges ++ [⟨s.nextExchange, request, false⟩], e.id = s.nextExchange →
        e.request = request) →
      Stage config s.drawn s.db s.files.token? s.files.journal? s.late
        (s.exchanges ++ [⟨s.nextExchange, request, false⟩]) phase) :
    Recoverable sha256 config (s.request request phase) := by
  have hCases : ∀ e ∈ s.exchanges ++ [⟨s.nextExchange, request, false⟩],
      e ∈ s.exchanges ∨ e = ⟨s.nextExchange, request, false⟩ := by
    simp
  refine { h with
    backed := fun e he => ?_
    ids := fun e he => ?_
    stage := hStage fun e he hId => ?_
    idle := fun hEnded => absurd (h.running hPhase) hEnded }
  · rcases hCases e he with hOld | rfl
    · exact h.backed e hOld
    · exact hBacked
  · rcases hCases e he with hOld | rfl
    · exact Nat.lt_succ_of_lt (h.ids e hOld)
    · exact Nat.lt_succ_self _
  · rcases hCases e he with hOld | rfl
    · exact absurd hId (Nat.ne_of_lt (h.ids e hOld))
    · rfl

theorem Recoverable.send (hStep : s.send config = some s') :
    Recoverable sha256 config s' := by
  unfold Rotation.send at hStep
  split at hStep
  · rename_i pending hPhase
    obtain ⟨hToken, hJournal⟩ := h.stageAt hPhase
    split_ifs at hStep with hNext
    cases hStep
    exact h.request (by simp [hPhase])
      (.enroll (h.agrees.mem pending hJournal) (.inl ⟨hJournal, hToken⟩))
      fun hRequest => ⟨hToken, hJournal, hNext, hRequest⟩
  · rename_i pending issued hPhase
    obtain ⟨hJournal, hId, hCertified⟩ := h.stageAt hPhase
    cases hStep
    refine h.request (by simp [hPhase]) ?_ fun hRequest => ⟨hJournal, hId, hCertified, hRequest⟩
    obtain ⟨_, hRow, hRowId, hFingerprint, -⟩ := hCertified
    rw [hId, ← hFingerprint]
    exact .activate (h.agrees.mem pending hJournal) hRow hRowId
  · cases hStep

/-- A code that is passed on. -/
theorem Recoverable.reject {code : EnrollmentErrorCode}
    (hAnswered : Answered s.db s.late pending (.error code)) :
    Recoverable sha256 config (s.finish (.error (.rejected code))) := by
  refine h.finish nofun fun hLate _ hCode => ?_
  cases hCode
  exact hAnswered.1 hLate

/-- `replace_expired_pending` is called for a journal whose request has expired. -/
theorem Recoverable.expire (hPhase : s.phase ≠ .idle)
    (hJournal : s.files.journal? = some pending)
    (hAnswered : Answered s.db s.late pending (.error .requestExpired)) :
    Recoverable sha256 config { s with phase := .expired } := by
  refine h.move hPhase fun p hSame => ?_
  rw [hJournal] at hSame
  cases hSame
  exact hAnswered.2 rfl

theorem Recoverable.receive {accepted : Bool}
    (hStep : s.receive fingerprintOf accepted = some s') : Recoverable sha256 config s' := by
  unfold Rotation.receive at hStep
  have hRunning : s.phase ≠ .idle := fun hIdle => by simp [hIdle] at hStep
  split at hStep
  · rename_i response hPhase
    obtain ⟨hJournal, hAnswered⟩ := h.stageAt hPhase
    cases hStep
    cases response with
    | issued =>
      unfold receiveIssued
      dsimp only
      split_ifs with hId
      iterate 4
        · exact h.fail rfl
      · exact h.move hRunning ⟨hJournal, not_not.mp hId, hAnswered⟩
    | activated => exact h.fail rfl
    | error code =>
      cases code with
      | requestExpired => exact h.expire hRunning hJournal hAnswered
      | _ => exact h.reject hAnswered
  · rename_i pending issued exchange response hPhase
    obtain ⟨hJournal, hAnswered⟩ := h.stageAt hPhase
    cases hStep
    cases response with
    | issued => exact h.fail rfl
    | activated =>
      show Recoverable sha256 config { s with phase := .storing pending issued }
      exact h.move hRunning ⟨hJournal, hAnswered⟩
    | error code =>
      cases code with
      | requestExpired => exact h.expire hRunning hJournal hAnswered
      | _ => exact h.reject hAnswered
  · cases hStep

/-! ## Steps of the server -/

omit h in
theorem mem_of_exchange? (h : s.exchange? id = some exchange) :
    exchange ∈ s.exchanges ∧ exchange.id = id :=
  ⟨mem_of_find?_eq_some h, by simpa using find?_some h⟩

/-- An operation on the repository. -/
theorem Recoverable.run {op : Op} {activated' : Bool}
    (hOp : Permitted sha256 config s.drawn s.db s.files.token? s.files.journal? s.activated
      activated' op) :
    Recoverable sha256 config
      { s with db := (Enrollment.run sha256 s.db op).2, activated := activated' } := by
  obtain ⟨hLedger, hAgrees, hGrows⟩ := h.agrees.run h.ledger hOp
  exact { h with
    ledger := hLedger
    agrees := hAgrees
    backed := fun e he => (h.backed e he).mono hGrows.issued
    late := fun hLate => hOp.mono (h.late hLate)
    stage := h.stage.mono hGrows
    returned := fun generation hEnded => (h.returned generation hEnded).imp_right hOp.mono }

/-- Requests that are dropped or looked up. -/
theorem Recoverable.subset
    (hOld : ∀ e ∈ exchanges', ∃ old ∈ s.exchanges, old.id = e.id ∧ old.request = e.request) :
    Recoverable sha256 config { s with exchanges := exchanges' } := by
  refine { h with backed := fun e he => ?_, ids := fun e he => ?_, stage := h.stage.subset hOld }
  · obtain ⟨old, hMem, -, hSame⟩ := hOld e he
    exact hSame ▸ h.backed old hMem
  · obtain ⟨old, hMem, hId, -⟩ := hOld e he
    exact hId ▸ h.ids old hMem

omit h in
theorem filter_old {p : Exchange → Bool} :
    ∀ e ∈ exchanges.filter p, ∃ old ∈ exchanges, old.id = e.id ∧ old.request = e.request :=
  fun e he => ⟨e, (mem_filter.mp he).1, rfl, rfl⟩

theorem Recoverable.answer (hMem : exchange ∈ s.exchanges)
    (hEnroll : ∀ token pending,
      Enrolls config s.files.token? s.files.journal? exchange.request token pending →
      Answered s.db s.late pending response)
    (hActivate : ∀ pending issued, s.files.journal? = some pending →
      issued.requestId = pending.requestId → Certified s.db pending issued →
      exchange.request = .activate issued.requestId pending.nextToken issued.fingerprint →
      Answered s.db s.late pending response) :
    Recoverable sha256 config (s.answer exchange.id response) := by
  have hDropped := h.subset (filter_old (p := fun e => e.id ≠ exchange.id))
  refine { hDropped with
    stage := (h.stage.answered hMem hEnroll hActivate).subset filter_old
    idle := fun hEnded => ?_ }
  show s.phase.answered exchange.id response = .idle
  rw [h.idle hEnded]
  rfl

theorem Recoverable.asking {request : EnrollmentRequest} {token : EnrollmentToken}
    (hEnrolls : Enrolls config s.files.token? s.files.journal? request token pending) :
    Asking sha256 config s.drawn s.db s.activated s.late token pending := by
  have hAgrees := h.agrees
  rw [hEnrolls.holds, hEnrolls.journal] at hAgrees
  exact ⟨h.ledger, hAgrees, h.late, hEnrolls.next⟩

theorem Recoverable.preflight
    (hStep : s.preflight sha256 id nowUnix serverCaPem refreshed = some s') :
    Recoverable sha256 config s' := by
  unfold Rotation.preflight at hStep
  split at hStep
  · rename_i hFind
    obtain ⟨hMem, rfl⟩ := mem_of_exchange? hFind
    split at hStep
    · rename_i error hFailed
      cases hStep
      refine h.answer hMem (fun t p hEnrolls => ?_) nofun
      cases hEnrolls.sent
      exact (h.asking hEnrolls).preflight (.error error) hFailed
    · rename_i durable hFound
      cases hStep
      refine h.answer hMem (fun t p hEnrolls => ?_) nofun
      cases hEnrolls.sent
      exact (Truthful.issued ((h.asking hEnrolls).preflight (.ok durable) hFound)).answered
    · cases hStep
      refine h.subset fun e he => ?_
      obtain ⟨old, hOld, rfl⟩ := mem_map.mp he
      refine ⟨old, hOld, ?_⟩
      split_ifs <;> exact ⟨rfl, rfl⟩
  · cases hStep

/-- A signature is an issuance for the request, and its answer tells what became of it. -/
theorem Recoverable.sign_cases
    (hStep : s.sign sha256 id certificatePem fingerprint notAfterUnix activationDeadlineUnix
      nowUnix serverCaPem refreshed = some s') :
    ∃ exchange ∈ s.exchanges, ∃ candidate response, (∀ requestId token fingerprint,
        exchange.request ≠ .activate requestId token fingerprint) ∧
      Permitted sha256 config s.drawn s.db s.files.token? s.files.journal? s.activated
        s.activated (.commitIssuance candidate nowUnix) ∧
      s' = Rotation.answer { s with
        db := (Enrollment.run sha256 s.db (.commitIssuance candidate nowUnix)).2 } exchange.id
          response ∧
      ∀ token pending,
        Enrolls config s.files.token? s.files.journal? exchange.request token pending →
        Truthful (Enrollment.run sha256 s.db (.commitIssuance candidate nowUnix)).2 s.late pending
          response := by
  unfold sign at hStep
  split at hStep
  swap
  · cases hStep
  rename_i requestId token nextToken agentId tunnelId csrDer hFind
  obtain ⟨hMem, rfl⟩ := mem_of_exchange? hFind
  split_ifs at hStep with hUnsigned
  have hBacked := h.backed _ hMem
  cases hBacked with
  | @enroll pending _ hDrawn hKnown =>
    dsimp only at hStep
    set candidate : IssuanceCandidate :=
      { toIssuanceRequest := enrollmentOf sha256 config token pending
        certificatePem, fingerprint, notAfterUnix, activationDeadlineUnix } with hCandidate
    have hOp : Permitted sha256 config s.drawn s.db s.files.token? s.files.journal? s.activated
        s.activated (.commitIssuance candidate nowUnix) := by
      refine ⟨.inl ⟨pending, hDrawn, rfl, rfl, rfl, rfl, rfl⟩, ?_, ?_, ?_, id, .inl⟩
      · intro _ _ hSame p hp hId hAbsent
        cases hSame
        obtain rfl := h.ledger.distinct pending hDrawn p hp (.inl hId)
        obtain ⟨hJournal, hToken⟩ := hKnown.resolve_right hAbsent
        exact ⟨hJournal, token, hToken, rfl⟩
      · exact nofun
      · exact nofun
    have hNew : ∀ current, loadSnapshot sha256 s.db = .ok current →
        ∀ grant ∈ current.snapshot.grants, grant.certificate ≠ candidate.fingerprint := by
      intro _ hLoad
      simp only [unsigned, hLoad, Bool.and_eq_true, List.all_eq_true, decide_eq_true_eq]
        at hUnsigned
      exact hUnsigned.2
    -- a call that waits for this answer sent the request of its files
    have hAsking : ∀ t p, Enrolls config s.files.token? s.files.journal? (.enroll pending.requestId
        token pending.nextToken config.agentId config.tunnelId pending.csrDer) t p →
        p = pending ∧ Asking sha256 config s.drawn s.db s.activated s.late token p := by
      intro _ p hEnrolls
      obtain ⟨hId, rfl, -⟩ := EnrollmentRequest.enroll.inj hEnrolls.sent
      have hMem := h.agrees.mem p hEnrolls.journal
      exact ⟨(h.ledger.distinct pending hDrawn p hMem (.inl hId)).symm, h.asking hEnrolls⟩
    have hRun : (Enrollment.run sha256 s.db (.commitIssuance candidate nowUnix)).2 =
        (commitIssuance sha256 s.db candidate nowUnix).2 := rfl
    refine ⟨_, hMem, candidate, ?_⟩
    rw [hRun]
    split at hStep
    · rename_i error db' hCommit
      rw [hCommit]
      cases hStep
      refine ⟨_, nofun, hOp, rfl, fun t p hEnrolls => ?_⟩
      obtain ⟨rfl, hAsks⟩ := hAsking t p hEnrolls
      exact .error (hAsks.commit rfl hNew hCommit)
    · rename_i durable db' hCommit
      rw [hCommit]
      cases hStep
      refine ⟨_, nofun, hOp, rfl, fun t p hEnrolls => ?_⟩
      obtain ⟨rfl, hAsks⟩ := hAsking t p hEnrolls
      exact .issued (hAsks.commit rfl hNew hCommit)

theorem Recoverable.sign
    (hStep : s.sign sha256 id certificatePem fingerprint notAfterUnix activationDeadlineUnix
      nowUnix serverCaPem refreshed = some s') : Recoverable sha256 config s' := by
  obtain ⟨_, hMem, _, _, hOther, hOp, rfl, hTruthful⟩ := h.sign_cases hStep
  exact (h.run hOp).answer hMem (fun t p hEnrolls => (hTruthful t p hEnrolls).answered)
    fun _ _ _ _ _ hRequest => absurd hRequest (hOther _ _ _)

/-- An activation is one of a row of the Agent. -/
theorem Recoverable.activate_cases (hStep : s.activate sha256 id nowUnix refreshed = some s') :
    ∃ exchange ∈ s.exchanges, ∃ requestId token fingerprint hash activated' response,
      exchange.request = .activate requestId token fingerprint ∧
      Permitted sha256 config s.drawn s.db s.files.token? s.files.journal? s.activated
        activated' (.activate requestId hash fingerprint nowUnix) ∧
      s' = Rotation.answer { s with
        db := (Enrollment.run sha256 s.db (.activate requestId hash fingerprint nowUnix)).2
        activated := activated' } exchange.id response ∧
      (∀ issued, response ≠ .issued issued) ∧
      ∀ pending (issued : IssuedEnrollment), s.files.journal? = some pending →
        issued.requestId = pending.requestId →
        exchange.request = .activate issued.requestId pending.nextToken issued.fingerprint →
        Answered (Enrollment.run sha256 s.db (.activate requestId hash fingerprint nowUnix)).2
          s.late pending response := by
  unfold Rotation.activate at hStep
  split at hStep
  swap
  · cases hStep
  rename_i requestId renewalToken fingerprint preflighted hFind
  obtain ⟨hMem, rfl⟩ := mem_of_exchange? hFind
  have hBacked := h.backed _ hMem
  cases hBacked with
  | @activate pending issued hDrawn hIssued hId =>
    obtain ⟨row, hRow, rfl⟩ := mem_issued.mp hIssued
    obtain ⟨hRenewal, -⟩ := h.ledger.columns _ hIssued pending hDrawn hId
    rw [← hId, ← hRenewal] at hStep
    -- a call that waits for this answer has the request in its journal
    have hWaiting : ∀ p (enrollment : IssuedEnrollment), s.files.journal? = some p →
        enrollment.requestId = p.requestId →
        EnrollmentRequest.activate pending.requestId pending.nextToken row.fingerprint =
          .activate enrollment.requestId p.nextToken enrollment.fingerprint →
        Agrees sha256 s.drawn s.db s.files.token? (some p) s.activated ∧
          row.requestId = p.requestId := by
      intro _ _ hJournal hEnrollment hRequest
      simp only [EnrollmentRequest.activate.injEq] at hRequest
      exact ⟨hJournal ▸ h.agrees, hId.trans (hRequest.1.trans hEnrollment)⟩
    refine ⟨_, hMem, row.requestId, pending.nextToken, row.fingerprint, row.renewalTokenHash, ?_⟩
    split at hStep
    · rename_i error db' hActivate
      have hResult : Enrollment.run sha256 s.db (.activate row.requestId row.renewalTokenHash
          row.fingerprint nowUnix) = (.error error, db') := by
        simp only [Enrollment.run, hActivate]
        rfl
      cases hStep
      refine ⟨s.activated, _, by rw [hId], .activate (fun version hReply => ?_) id .inl,
        by rw [hResult], fun _ hSame => (by cases hSame),
        fun p enrollment hJournal hEnrollment hRequest => ?_⟩
      · rw [hResult] at hReply
        cases hReply
      · obtain ⟨hAgrees, hRowId⟩ := hWaiting p enrollment hJournal hEnrollment hRequest
        rw [hResult]
        exact .activate refreshed hAgrees h.late hRow hRowId hActivate
    · rename_i version db' hActivate
      have hResult : Enrollment.run sha256 s.db (.activate row.requestId row.renewalTokenHash
          row.fingerprint nowUnix) = (.ok (.activated version), db') := by
        simp only [Enrollment.run, hActivate]
        rfl
      have hActive : pending.Has db' .active := .of_inState (activate_answers hRow hActivate) hId
      cases hStep
      refine ⟨true, _, by rw [hId], .activate (fun _ _ => rfl) (fun _ => rfl)
        fun _ => .inr ⟨pending, hDrawn, hResult ▸ hActive⟩, by rw [hResult], fun _ hSame => ?_,
        fun p enrollment hJournal hEnrollment hRequest => ?_⟩
      · split_ifs at hSame
      · obtain ⟨hAgrees, hRowId⟩ := hWaiting p enrollment hJournal hEnrollment hRequest
        rw [hResult]
        split_ifs
        · exact .activate refreshed hAgrees h.late hRow hRowId hActivate
        · exact .internal

theorem Recoverable.activate
    (hStep : s.activate sha256 id nowUnix refreshed = some s') : Recoverable sha256 config s' := by
  obtain ⟨_, hMem, _, _, _, _, _, _, hIs, hOp, rfl, -, hAnswered⟩ := h.activate_cases hStep
  refine (h.run hOp).answer hMem (fun _ _ hEnrolls => ?_)
    fun p enrollment hJournal hEnrollment _ => hAnswered p enrollment hJournal hEnrollment
  cases hIs.symm.trans hEnrolls.sent

end

/-! ## Runs -/

/-- An Agent with an activated credential is not revoked. -/
def Unrevoked (config : AgentEnrollmentConfig) (s : Rotation) : RotationAction → Prop
  | .other (.revokeAgent agentId tunnelId _) =>
    s.activated = true → ¬(agentId = config.agentId ∧ tunnelId = config.tunnelId)
  | _ => True

instance (config : AgentEnrollmentConfig) (s : Rotation) (action : RotationAction) :
    Decidable (Unrevoked config s action) := by
  unfold Unrevoked
  split <;> infer_instance

theorem Recoverable.other {op : Op} (h : Recoverable sha256 config s)
    (hForeign : s.foreign sha256 op = true) (hGuard : Unrevoked config s (.other op)) :
    Recoverable sha256 config { s with db := (Enrollment.run sha256 s.db op).2 } := by
  have hAll : ∀ {p : PendingEnrollment → Prop} [DecidablePred p],
      (s.drawn.all fun old => p old) = true → ∀ old ∈ s.drawn, p old := by
    intro _ _ hEvery old hOld
    exact of_decide_eq_true (List.all_eq_true.mp hEvery old hOld)
  refine h.run ⟨?_, ?_, ?_, ?_, id, .inl⟩
  · cases op with
    | createBootstrapToken => exact hAll hForeign
    | commitIssuance => exact .inr (hAll hForeign)
    | _ => trivial
  · rintro _ _ rfl p hp hId
    exact absurd hId.symm (hAll hForeign p hp).1
  · rintro p hp _ _ _ _ rfl
    exact absurd rfl (hAll hForeign p hp)
  · rintro hActivated _ rfl
    exact hGuard hActivated ⟨rfl, rfl⟩

/-- **Every step keeps the agreement.** -/
theorem Recoverable.step {action : RotationAction} (h : Recoverable sha256 config s)
    (hGuard : Unrevoked config s action)
    (hStep : s.step sha256 fingerprintOf config action = some s') :
    Recoverable sha256 config s' := by
  cases action with
  | rotate =>
    simp only [Rotation.step] at hStep
    split_ifs at hStep
    cases hStep
    exact { h with
      late := id
      stage := trivial
      idle := fun hEnded => absurd rfl hEnded
      returned := nofun
      rejected := nofun }
  | crash =>
    cases hStep
    exact { h with
      stage := trivial
      idle := fun _ => rfl
      returned := nofun
      rejected := nofun }
  | fails =>
    simp only [Rotation.step] at hStep
    split_ifs at hStep with hIdle
    cases hStep
    exact h.fail (Bool.eq_false_iff.mpr (not_or.mp hIdle).2)
  | advance => exact h.advance hStep
  | draw => exact h.draw hStep
  | complete => exact h.complete hStep
  | send => exact h.send hStep
  | receive => exact h.receive hStep
  | preflight => exact h.preflight hStep
  | sign => exact h.sign hStep
  | activate => exact h.activate hStep
  | serverFails =>
    simp only [Rotation.step] at hStep
    split_ifs at hStep with hSome
    cases hStep
    obtain ⟨_, hFind⟩ := isSome_iff_exists.mp hSome
    obtain ⟨hMem, rfl⟩ := mem_of_exchange? hFind
    exact h.answer hMem (fun _ _ _ => .internal) fun _ _ _ _ _ _ => .internal
  | drop =>
    cases hStep
    exact h.subset filter_old
  | other =>
    simp only [Rotation.step] at hStep
    split_ifs at hStep with hForeign
    cases hStep
    exact h.other hForeign hGuard

/-- **A rotation that was interrupted is taken up again.** In every run, whatever crashes,
losses, expiries and operations of others it has: once an activation of the Agent has
committed, no call that begins later is rejected with a terminal code, and a call that
succeeds leaves no journal and the renewal token of an active credential of the Agent. -/
theorem rotate_recovers {tokenFile : List UInt8} {actions : List RotationAction}
    (hEmpty : db.credentials.rows = [])
    (hGuard : Guarded (Rotation.step sha256 fingerprintOf config) (Unrevoked config)
      (start db tokenFile) actions)
    (hRun : exec (Rotation.step sha256 fingerprintOf config) (start db tokenFile)
      actions = some s) :
    (s.late = true → ∀ code, s.ended = some (.error (.rejected code)) → code.isTerminal = false) ∧
    ∀ generation, s.ended = some (.ok generation) → s.files.pending = none ∧
      ∃ token, s.files.token? = some token ∧ ∃ row ∈ s.db.credentials.rows,
        row.state = .active ∧ row.agentId = config.agentId ∧ row.tunnelId = config.tunnelId ∧
        row.renewalTokenHash = tokenHash sha256 token := by
  have h : Recoverable sha256 config s :=
    exec_induction_guarded (fun _ _ _ hBefore hOk hStep => hBefore.step hOk hStep)
      (recoverable_start hEmpty) hGuard hRun
  refine ⟨h.rejected, fun generation hEnded => ?_⟩
  obtain ⟨hNone, hActivated⟩ := h.returned generation hEnded
  have hJournal : s.files.journal? = none := by
    rw [AgentFiles.journal?, hNone, bind_none]
  obtain ⟨p, hp, hActive, hToken | hSome⟩ := h.agrees.current hActivated
  · obtain ⟨row, hRow, -, hState, hRenewal, hAgent, hTunnel⟩ := h.ledger.row_of_has hp hActive
    exact ⟨hNone, p.nextToken, hToken, row, hRow, hState, hAgent, hTunnel, hRenewal⟩
  · rw [hJournal] at hSome
    cases hSome

namespace RotationExample

open EnrollmentExample

def webConfig : AgentEnrollmentConfig := ⟨agentId, web⟩

def request (k : UInt8) : PendingEnrollment where
  requestId := filled k
  nextToken := filled (k + 100)
  privateKeyPem := [107]
  csrDer := [k]
  utf8 := by decide

def certificateDigest (pem : List UInt8) : Option CertificateFingerprint := some (digest pem)

def system : Rotation → RotationAction → Option Rotation :=
  Rotation.step digest certificateDigest webConfig

/-- An Agent that was provisioned with a token. -/
def provisioned : Rotation := start initial (tokenText (filled 7))

/-- `rotate` up to the certificate. -/
def issue (k : UInt8) (exchange nowUnix : Nat) : List RotationAction :=
  [.rotate, .advance, .advance, .draw (request k), .advance, .send,
    .preflight exchange nowUnix [99] true,
    .sign exchange [k] (digest [k]) 1000 500 nowUnix [99] true]

/-- The first rotation. -/
def first : List RotationAction :=
  [.other (.createBootstrapToken (tokenHash digest (filled 7)) agentId web 1000)] ++
    issue 1 0 10 ++ [.receive true] ++ List.replicate 4 .advance ++
    [.send, .activate 1 20 true, .receive true, .advance, .advance, .advance]

/-- A second one whose first response is lost with the Agent, and which crashes once more
before its journal is removed. -/
def interrupted : List RotationAction :=
  first ++ issue 2 2 30 ++
    [.crash, .rotate, .advance, .advance, .send, .preflight 3 40 [99] true, .receive true] ++
    List.replicate 8 .advance ++
    [.send, .activate 4 50 true, .receive true, .advance, .advance, .crash, .rotate, .advance,
      .advance, .advance, .complete none]

end RotationExample

open RotationExample in
theorem rotate_recovers_interrupted :
    ∃ s, exec system provisioned interrupted = some s ∧ s.late = true ∧
      s.ended = some (.ok 1) ∧ s.files.pending = none ∧
      ∃ token, s.files.token? = some token ∧ ∃ row ∈ s.db.credentials.rows,
        row.state = .active ∧ row.agentId = webConfig.agentId ∧ row.tunnelId = webConfig.tunnelId ∧
        row.renewalTokenHash = tokenHash EnrollmentExample.digest token := by
  obtain ⟨s, hs, hLate, hEnded⟩ : ∃ s, exec system provisioned interrupted = some s ∧
      s.late = true ∧ s.ended = some (.ok 1) := by decide +kernel
  have hGuard : Guarded system (Unrevoked webConfig) provisioned interrupted := by
    decide +kernel
  obtain ⟨hNone, hToken⟩ := (rotate_recovers rfl hGuard hs).2 1 hEnded
  exact ⟨s, hs, hLate, hEnded, hNone, hToken⟩

end TunnelProxy.Agent
