import TunnelProxy.Lib.Versioned
import TunnelProxy.Control.Credentials
import TunnelProxy.Control.SnapshotHistory

/-!
# The snapshot authority

`PersistentSnapshotAuthority` keeps a durable snapshot and a live one in step. Its calls
hold a gate; the enrollment repository and other processes commit to the same database
without it. A commit of the authority is a durable commit and then a publication, a refresh
is a load and then a publication, and a load is one SELECT for the head, one for the
certificates and one for the tunnels of each certificate. The last ones run while the one for
the certificates is open, in the read transaction that it has begun, and so see the tables as
they were then. A call may be dropped at any point; what its worker still commits is then a
commit of another connection.

* `authority_consistent` — as long as loads return committed snapshots, no publication is
  ever refused, and what is published is a committed snapshot, in order
-/

namespace TunnelProxy.Control

open Common Versioned Transition

/-! ## The system -/

inductive PersistentSnapshotAuthorityError where
  | uninitialized
  | repository (error : SnapshotRepositoryError)
  | publishInvariant
deriving DecidableEq

/-- The call that holds the gate, and how far it has come. -/
inductive AuthorityCall where
  | idle
  /-- A load has read the head. -/
  | head (head : SnapshotHead)
  /-- A load has read the certificates of `tables`; the tunnels of `rows` are still to be
  read. -/
  | rows (head : SnapshotHead) (tables : SnapshotTables)
      (rows : List (CertificateFingerprint × AgentId)) (grants : List AgentGrant)
  /-- A load has returned; the publication is next. -/
  | loaded (snapshot : VersionedAuthorizationSnapshot)
  /-- A commit is durable; the publication is next. -/
  | committed (snapshot : VersionedAuthorizationSnapshot)
deriving DecidableEq

/-- A load has begun and not returned. -/
def AuthorityCall.loading : AuthorityCall → Bool
  | .head _ => true
  | .rows _ _ _ _ => true
  | _ => false

structure Authority where
  db : Enrollment.Db
  /-- The durable snapshots, newest first. -/
  history : List VersionedAuthorizationSnapshot
  /-- Those that were durable at some moment since the last load began. -/
  during : List VersionedAuthorizationSnapshot
  /-- The snapshot of the publisher; none until `open` has returned. -/
  published : Option VersionedAuthorizationSnapshot
  call : AuthorityCall
  /-- The reply of the last call that ended. -/
  reply : Option (Except PersistentSnapshotAuthorityError Unit)
  /-- All that was ever published, newest first. -/
  log : List VersionedAuthorizationSnapshot
  /-- The versions that subscribers have read, newest first. -/
  observed : List SnapshotVersion

inductive AuthorityAction where
  /-- Another connection commits with the snapshot repository. -/
  | commit (snapshot : VersionedAuthorizationSnapshot)
  /-- A transaction of the enrollment repository. -/
  | enroll (op : Enrollment.Op)
  /-- `PersistentSnapshotAuthority::commit`, up to its publication. -/
  | commitOwn (snapshot : VersionedAuthorizationSnapshot)
  /-- A load begins, for `open` or for a refresh. -/
  | selectHead
  | selectAgents
  | selectTunnels
  /-- The load compares the digest and returns. -/
  | finishLoad
  | publish
  /-- The caller goes away. -/
  | cancel
  /-- A subscriber reads the current snapshot. -/
  | observe
  /-- A new process. -/
  | restart

namespace Authority

def init : Authority :=
  { db := ⟨⟨none, [], []⟩, Table.empty, Table.empty⟩
    history := [], during := [], published := none, call := .idle, reply := none
    log := [], observed := [] }

def replies (s : Authority) (reply : Except PersistentSnapshotAuthorityError Unit) : Authority :=
  { s with call := .idle, reply := some reply }

variable (sha256 : Hash)

/-- The database after a transaction, with the history of what it loads as. -/
def store (s : Authority) (db : Enrollment.Db) : Authority :=
  match db.snapshot.loadLatest sha256 with
  | .ok (some current) =>
    if s.history.head? = some current then { s with db }
    else { s with db, history := current :: s.history, during := current :: s.during }
  | _ => { s with db }

/-- The publication at the end of `open`, of a refresh or of a commit. -/
def publishes (s : Authority) (snapshot : VersionedAuthorizationSnapshot) : Authority :=
  match s.published with
  | none => { s.replies (.ok ()) with published := some snapshot, log := snapshot :: s.log }
  | some current =>
    match Control.publish current snapshot with
    | .ok (_, next) => { s.replies (.ok ()) with published := some next, log := next :: s.log }
    | .error _ => s.replies (.error .publishInvariant)

/-- What the load in progress returns, once it has read all tunnels. -/
def loadResult (s : Authority) :
    Option (Except SnapshotRepositoryError VersionedAuthorizationSnapshot) :=
  match s.call with
  | .rows head _ [] grants => some (checkLoaded sha256 head grants)
  | _ => none

def step (s : Authority) : AuthorityAction → Option Authority
  | .commit snapshot =>
    some (s.store sha256 { s.db with snapshot := (s.db.snapshot.commit sha256 snapshot).2 })
  | .enroll op => some (s.store sha256 (Enrollment.run sha256 s.db op).2)
  | .commitOwn snapshot =>
    if s.call = .idle ∧ s.published.isSome then
      match s.db.snapshot.commit sha256 snapshot with
      | (.ok _, tables) =>
        some { s.store sha256 { s.db with snapshot := tables } with call := .committed snapshot }
      | (.error error, _) => some (s.replies (.error (.repository error)))
    else none
  | .selectHead =>
    if s.call = .idle then
      match s.db.snapshot.head with
      | none => some (s.replies (.error .uninitialized))
      | some head => some { s with call := .head head, during := s.history.head?.toList }
    else none
  | .selectAgents =>
    match s.call with
    | .head head =>
      some { s with
        call := .rows head s.db.snapshot
          (s.db.snapshot.agents.insertionSort fun a b => (compare a.1 b.1).isLE) [] }
    | _ => none
  | .selectTunnels =>
    match s.call with
    | .rows head tables (row :: rest) grants =>
      some { s with
        call := .rows head tables rest (grants ++ [⟨row.1, row.2, tables.tunnelsOf row.1⟩]) }
    | _ => none
  | .finishLoad =>
    match s.loadResult sha256 with
    | some (.ok snapshot) => some { s with call := .loaded snapshot }
    | some (.error error) => some (s.replies (.error (.repository error)))
    | none => none
  | .publish =>
    match s.call with
    | .loaded snapshot => some (s.publishes snapshot)
    | .committed snapshot => some (s.publishes snapshot)
    | _ => none
  | .cancel => some { s with call := .idle }
  | .observe => s.published.map fun current => { s with observed := current.version :: s.observed }
  | .restart => some { s with published := none, call := .idle }

/-! ## Assumptions -/

/-- The hash does not collide on the snapshot that is committed and one committed before. -/
def collisionFree (s : Authority) (snapshot : VersionedAuthorizationSnapshot) : Prop :=
  ∀ old ∈ s.history, snapshotDigest sha256 snapshot.snapshot = snapshotDigest sha256 old.snapshot →
      encodeSnapshot snapshot.snapshot = encodeSnapshot old.snapshot

/-- A load returns a snapshot that was durable at some moment since it began. -/
def loadsCommitted (s : Authority) : Prop :=
  ∀ result ∈ s.loadResult sha256, ∀ snapshot ∈ result.toOption, snapshot ∈ s.during

def assumed (s : Authority) : AuthorityAction → Prop
  | .commitOwn snapshot => s.collisionFree sha256 snapshot
  | .finishLoad => s.loadsCommitted sha256
  | _ => True

instance (s : Authority) (snapshot : VersionedAuthorizationSnapshot) :
    Decidable (s.collisionFree sha256 snapshot) :=
  inferInstanceAs (Decidable (∀ old ∈ s.history, _))

instance (s : Authority) : Decidable (s.loadsCommitted sha256) :=
  inferInstanceAs (Decidable (∀ result ∈ s.loadResult sha256, ∀ _ ∈ result.toOption, _))

instance decidableAssumed (s : Authority) : ∀ a, Decidable (s.assumed sha256 a)
  | .commitOwn snapshot => inferInstanceAs (Decidable (s.collisionFree sha256 snapshot))
  | .finishLoad => inferInstanceAs (Decidable (s.loadsCommitted sha256))
  | .commit _ | .enroll _ | .selectHead | .selectAgents | .selectTunnels | .publish
  | .cancel | .observe | .restart => inferInstanceAs (Decidable True)

/-! ## Invariant -/

/-- The snapshot was durable, and nothing newer has been published. -/
def Publishable (s : Authority) (snapshot : VersionedAuthorizationSnapshot) : Prop :=
  snapshot ∈ s.history ∧ ∀ old ∈ s.log, old.version ≤ snapshot.version

structure Consistent (s : Authority) : Prop where
  loads : s.db.snapshot.loadLatest sha256 = .ok s.history.head?
  growing : Growing VersionedAuthorizationSnapshot.version s.history
  logged : ∀ snapshot ∈ s.log, snapshot ∈ s.history
  ordered : s.log.Pairwise fun newer older => older.version ≤ newer.version
  published : ∀ current, s.published = some current → s.log.head? = some current
  during : s.call.loading → ∀ snapshot ∈ s.during, s.Publishable snapshot
  pending : ∀ snapshot, s.call = .loaded snapshot ∨ s.call = .committed snapshot →
    s.Publishable snapshot
  accepted : s.reply ≠ some (.error .publishInvariant)
  observed : s.observed.Pairwise fun newer older => older ≤ newer
  observable : ∀ version ∈ s.observed, ∃ current ∈ s.log.head?, version ≤ current.version

variable {sha256} {s s' : Authority} {snapshot : VersionedAuthorizationSnapshot}

theorem consistent_init : init.Consistent sha256 where
  loads := rfl
  growing := List.Pairwise.nil
  logged := nofun
  ordered := List.Pairwise.nil
  published := nofun
  during := nofun
  pending := fun _ h => (by rcases h with h | h <;> cases h)
  accepted := nofun
  observed := List.Pairwise.nil
  observable := nofun

section

variable (h : s.Consistent sha256)
include h

/-- The durable snapshot is not older than anything published. -/
theorem Consistent.publishable_head
    (hHead : s.history.head? = some snapshot) : s.Publishable snapshot := by
  obtain ⟨_, hHistory⟩ := List.head?_eq_some_iff.mp hHead
  have hGrowing := h.growing
  rw [hHistory] at hGrowing
  refine ⟨List.mem_of_mem_head? hHead, fun old hOld => ?_⟩
  have hMem := h.logged old hOld
  rw [hHistory] at hMem
  exact hGrowing.mem_le_head hMem

/-- A transaction that leaves the snapshot tables alone adds nothing to the history. -/
theorem Consistent.store_same {db : Enrollment.Db}
    (hSame : db.snapshot = s.db.snapshot) : s.store sha256 db = { s with db } := by
  have hLoads : db.snapshot.loadLatest sha256 = .ok s.history.head? := hSame ▸ h.loads
  unfold Authority.store
  rw [hLoads]
  cases hHead : s.history.head? with
  | none => rfl
  | some => exact if_pos rfl

/-- Transactions of any connection, at any point of a call. -/
theorem Consistent.store {db : Enrollment.Db}
    (hAdvances : SnapshotTables.Advances sha256 s.db.snapshot db.snapshot) :
    (s.store sha256 db).Consistent sha256 := by
  rcases hAdvances with hSame | ⟨snapshot, hLoad, hNewer⟩
  · rw [h.store_same hSame]
    exact { h with loads := hSame ▸ h.loads }
  · have hNew : ∀ current, s.history.head? = some current → current.version < snapshot.version :=
      fun current hHead => hNewer current (h.loads.trans (congrArg Except.ok hHead))
    have hChanged : s.history.head? ≠ some snapshot := fun hHead => (hNew snapshot hHead).ne rfl
    have hGrowing : Growing VersionedAuthorizationSnapshot.version (snapshot :: s.history) := by
      cases hHistory : s.history with
      | nil => exact Growing.singleton _
      | cons current =>
        have hOld := h.growing
        rw [hHistory] at hOld
        exact hOld.cons (hNew current (by rw [hHistory]; rfl))
    -- what was publishable still is, and the new snapshot is newer than all that was logged
    have hKept : ∀ {old}, s.Publishable old →
        old ∈ snapshot :: s.history ∧ ∀ logged ∈ s.log, logged.version ≤ old.version :=
      fun hOld => ⟨List.mem_cons_of_mem _ hOld.1, hOld.2⟩
    have hSnapshot : ∀ logged ∈ s.log, logged.version ≤ snapshot.version := fun logged hLogged =>
      hGrowing.mem_le_head (List.mem_cons_of_mem _ (h.logged logged hLogged))
    unfold Authority.store
    rw [hLoad]
    dsimp only
    rw [if_neg hChanged]
    exact
      { h with
        loads := hLoad
        growing := hGrowing
        logged := fun logged hLogged => List.mem_cons_of_mem _ (h.logged logged hLogged)
        during := fun hLoading => List.forall_mem_cons.mpr
          ⟨⟨List.mem_cons_self, hSnapshot⟩, fun old hOld => hKept (h.during hLoading old hOld)⟩
        pending := fun old hOld => hKept (h.pending old hOld) }

omit h in
@[simp]
theorem store_db (db : Enrollment.Db) : (s.store sha256 db).db = db := by
  unfold Authority.store
  split
  · split_ifs <;> rfl
  · rfl

omit h in
@[simp]
theorem store_call (db : Enrollment.Db) : (s.store sha256 db).call = s.call := by
  unfold Authority.store
  split
  · split_ifs <;> rfl
  · rfl

omit h in
/-- What was durable since the load began stays so. -/
theorem mem_store {db : Enrollment.Db} (hMem : snapshot ∈ s.during) :
    snapshot ∈ (s.store sha256 db).during := by
  unfold Authority.store
  split
  · split_ifs
    · exact hMem
    · exact List.mem_cons_of_mem _ hMem
  · exact hMem

/-- A durable commit of the authority leaves its snapshot publishable: it is the newest, or
it was there already, under its own digest. -/
theorem Consistent.commitOwn (hFree : s.collisionFree sha256 snapshot)
    {outcome : SnapshotCommitOutcome} {tables : SnapshotTables}
    (hCommit : s.db.snapshot.commit sha256 snapshot = (.ok outcome, tables)) :
    { s.store sha256 { s.db with snapshot := tables } with
      call := .committed snapshot : Authority }.Consistent sha256 := by
  have hStore : (s.store sha256 { s.db with snapshot := tables }).Consistent sha256 := by
    refine h.store ?_
    have hAdvances := SnapshotTables.advances_commit snapshot h.loads
    rwa [hCommit] at hAdvances
  suffices hHead : (s.store sha256 { s.db with snapshot := tables }).history.head? =
      some snapshot by
    exact
      { hStore with
        during := nofun
        pending := by
          rintro old (hOld | hOld)
          · cases hOld
          · cases hOld
            exact hStore.publishable_head hHead }
  have hLoads := hStore.loads
  rcases SnapshotTables.commit_cases snapshot h.loads with
    ⟨error, hCase⟩ | ⟨outcome', current, digest, hCase, hLast, hVersion, hDigest, hDigest'⟩ |
      ⟨outcome', tables', hCase, hLoad, -⟩
  · cases hCommit.symm.trans hCase
  · cases hCommit.symm.trans hCase
    -- the digests agree, so the encodings do, and so the snapshots
    have hBytes : encodeSnapshot snapshot.snapshot = encodeSnapshot current.snapshot :=
      hFree current (List.mem_of_mem_head? hLast) (hDigest.trans hDigest'.symm)
    have hEq : snapshot = current := by
      refine VersionedAuthorizationSnapshot.ext hVersion ?_
      obtain ⟨_, hEncoded, -⟩ := snapshotDigest_eq_ok hDigest
      exact encodeSnapshot_injective hEncoded (hBytes ▸ hEncoded)
    rw [store_db] at hLoads
    exact (Except.ok.inj (hLoads.symm.trans h.loads)).trans (hEq ▸ hLast)
  · cases hCommit.symm.trans hCase
    rw [store_db] at hLoads
    exact Except.ok.inj (hLoads.symm.trans hLoad)

/-- The publisher holds a snapshot of the history at or before this one, and so takes it. -/
theorem Consistent.publishes_eq (hSnapshot : s.Publishable snapshot) :
    s.publishes snapshot =
      { s.replies (.ok ()) with published := some snapshot, log := snapshot :: s.log } := by
  unfold Authority.publishes
  cases hPublished : s.published with
  | none => rfl
  | some current =>
    have hLogged : current ∈ s.log := List.mem_of_mem_head? (h.published current hPublished)
    have hLater := h.growing.eq_or_lt (h.logged current hLogged) hSnapshot.1
      (hSnapshot.2 current hLogged)
    obtain ⟨_, hOk⟩ := publish_ok hLater
    simp only [hOk]

theorem Consistent.publishes (hSnapshot : s.Publishable snapshot) :
    (s.publishes snapshot).Consistent sha256 := by
  rw [h.publishes_eq hSnapshot]
  exact
    { h with
      logged := List.forall_mem_cons.mpr ⟨hSnapshot.1, h.logged⟩
      ordered := List.pairwise_cons.mpr ⟨hSnapshot.2, h.ordered⟩
      published := fun _ hPublished => hPublished
      during := nofun
      pending := fun _ hCall => (by rcases hCall with hCall | hCall <;> cases hCall)
      accepted := nofun
      observable := by
        intro version hVersion
        obtain ⟨current, hHead, hLe⟩ := h.observable version hVersion
        exact ⟨snapshot, rfl, hLe.trans (hSnapshot.2 current (List.mem_of_mem_head? hHead))⟩ }

/-- The call has ended, or is at a point where nothing has been read. -/
theorem Consistent.idle (published : Option VersionedAuthorizationSnapshot)
    (hPublished : published = none ∨ published = s.published) :
    { s with call := .idle, published : Authority }.Consistent sha256 :=
  { h with
    published := by
      intro current hCurrent
      rcases hPublished with hNone | hSame
      · cases hNone.symm.trans hCurrent
      · exact h.published current (hSame.symm.trans hCurrent)
    during := nofun
    pending := fun _ hCall => (by rcases hCall with hCall | hCall <;> cases hCall) }

theorem Consistent.replies {reply : Except PersistentSnapshotAuthorityError Unit}
    (hReply : reply ≠ .error .publishInvariant) : (s.replies reply).Consistent sha256 :=
  { h.idle s.published (.inr rfl) with
    accepted := fun hSame => hReply (Option.some.inj hSame) }

/-- A load goes on reading. -/
theorem Consistent.reading {call : AuthorityCall}
    (hLoading : s.call.loading) (hNext : call.loading) :
    { s with call : Authority }.Consistent sha256 :=
  { h with
    during := fun _ => h.during hLoading
    pending := by
      rintro snapshot (hCall | hCall)
      · change call = .loaded snapshot at hCall
        subst hCall
        cases hNext
      · change call = .committed snapshot at hCall
        subst hCall
        cases hNext }

theorem Consistent.selectHead
    (hStep : s.step sha256 .selectHead = some s') : s'.Consistent sha256 := by
  simp only [step] at hStep
  split at hStep
  · split at hStep
    · cases hStep
      exact h.replies (by simp)
    · cases hStep
      exact
        { h with
          -- the load can return the durable snapshot, and whatever is committed later
          during := fun _ snapshot hSnapshot =>
            h.publishable_head (Option.mem_toList.mp hSnapshot)
          pending := fun _ hCall => (by rcases hCall with hCall | hCall <;> cases hCall) }
  · cases hStep

omit h in
theorem loading_of_loadResult
    {result : Except SnapshotRepositoryError VersionedAuthorizationSnapshot}
    (h : s.loadResult sha256 = some result) : s.call.loading := by
  unfold loadResult at h
  split at h
  · rename_i hCall
    rw [hCall]
    rfl
  · cases h

theorem Consistent.finishLoad (hAssumed : s.loadsCommitted sha256)
    (hStep : s.step sha256 .finishLoad = some s') : s'.Consistent sha256 := by
  simp only [step] at hStep
  split at hStep
  · rename_i snapshot hResult
    cases hStep
    have hSnapshot : s.Publishable snapshot :=
      h.during (loading_of_loadResult hResult) snapshot (hAssumed _ hResult snapshot rfl)
    exact
      { h with
        during := nofun
        pending := by
          rintro old (hOld | hOld)
          · cases hOld
            exact hSnapshot
          · cases hOld }
  · cases hStep
    exact h.replies (by simp)
  · cases hStep

theorem Consistent.observe {current : VersionedAuthorizationSnapshot}
    (hPublished : s.published = some current) :
    { s with observed := current.version :: s.observed : Authority }.Consistent sha256 := by
  have hHead := h.published current hPublished
  have hLe : ∀ version ∈ s.observed, version ≤ current.version := by
    intro version hVersion
    obtain ⟨_, hNewest, hLe⟩ := h.observable version hVersion
    cases hHead.symm.trans hNewest
    exact hLe
  exact
    { h with
      observed := List.pairwise_cons.mpr ⟨hLe, h.observed⟩
      observable := List.forall_mem_cons.mpr ⟨⟨current, hHead, le_rfl⟩, h.observable⟩ }

theorem consistent_step {a : AuthorityAction}
    (hAssumed : s.assumed sha256 a) (hStep : s.step sha256 a = some s') :
    s'.Consistent sha256 := by
  cases a with
  | commit =>
    cases hStep
    exact h.store (SnapshotTables.advances_commit _ h.loads)
  | enroll op =>
    cases hStep
    exact h.store (Enrollment.run_advances s.db op)
  | commitOwn snapshot =>
    simp only [step] at hStep
    split at hStep
    · split at hStep
      · rename_i hCommit
        cases hStep
        exact h.commitOwn hAssumed hCommit
      · cases hStep
        exact h.replies (by simp)
    · cases hStep
  | selectHead => exact h.selectHead hStep
  | selectAgents =>
    simp only [step] at hStep
    split at hStep
    · rename_i hCall
      cases hStep
      exact h.reading (by rw [hCall]; rfl) rfl
    · cases hStep
  | selectTunnels =>
    simp only [step] at hStep
    split at hStep
    · rename_i hCall
      cases hStep
      exact h.reading (by rw [hCall]; rfl) rfl
    · cases hStep
  | finishLoad => exact h.finishLoad hAssumed hStep
  | publish =>
    simp only [step] at hStep
    split at hStep
    · rename_i snapshot hCall
      cases hStep
      exact h.publishes (h.pending snapshot (.inl hCall))
    · rename_i snapshot hCall
      cases hStep
      exact h.publishes (h.pending snapshot (.inr hCall))
    · cases hStep
  | cancel =>
    cases hStep
    exact h.idle s.published (.inr rfl)
  | observe =>
    obtain ⟨_, hPublished, rfl⟩ := Option.map_eq_some_iff.mp hStep
    exact h.observe hPublished
  | restart =>
    cases hStep
    exact h.idle none (.inl rfl)

end

/-- **The durable and the live snapshot.** In every run in which loads return committed
snapshots and no commit of the authority meets a colliding digest, no publication is
refused; everything that was published was durable, in order of version, and no version
with two contents; what is published is not ahead of the durable snapshot; and subscribers
never see the version decrease. -/
theorem authority_consistent {actions : List AuthorityAction}
    (hAssumed : Guarded (step sha256) (assumed sha256) init actions)
    (hRun : exec (step sha256) init actions = some s) :
    s.reply ≠ some (.error .publishInvariant) ∧ (∀ snapshot ∈ s.log, snapshot ∈ s.history) ∧
      (s.log.Pairwise fun newer older => older.version ≤ newer.version) ∧
      (∀ a ∈ s.log, ∀ b ∈ s.log, a.version = b.version → a = b) ∧
      (∀ current, s.published = some current →
        current ∈ s.log ∧ ∃ durable, s.db.snapshot.loadLatest sha256 = .ok (some durable) ∧
          current.version ≤ durable.version) ∧
      s.observed.Pairwise fun newer older => older ≤ newer := by
  have h : s.Consistent sha256 :=
    exec_induction_guarded (fun _ _ _ h hGuard hStep => consistent_step h hGuard hStep)
      consistent_init hAssumed hRun
  refine ⟨h.accepted, h.logged, h.ordered, ?_, ?_, h.observed⟩
  · intro a ha b hb hVersion
    exact h.growing.eq_of_version (h.logged a ha) (h.logged b hb) hVersion
  · intro current hPublished
    have hLogged : current ∈ s.log := List.mem_of_mem_head? (h.published current hPublished)
    obtain ⟨durable, hHead⟩ : ∃ durable, s.history.head? = some durable := by
      cases hHistory : s.history with
      | nil => exact absurd (h.logged current hLogged) (by simp [hHistory])
      | cons durable => exact ⟨durable, rfl⟩
    refine ⟨hLogged, durable, h.loads.trans (congrArg Except.ok hHead), ?_⟩
    exact (h.publishable_head hHead).2 current hLogged

/-! ## A run -/

namespace Example

open Enrollment.EnrollmentExample

/-- The snapshot that grants one tunnel to the certificate `k`. -/
def granting (version : SnapshotVersion) (k : UInt8) : VersionedAuthorizationSnapshot :=
  let agent : AuthorizedAgent := ⟨agentId, Std.ExtTreeMap.ofList [(web, TunnelStatus.enabled)]⟩
  ⟨version, ⟨Std.ExtTreeMap.ofList [(filled k, agent)]⟩⟩

/-- A load of a snapshot of `certificates` certificates, up to its publication. -/
def load (certificates : Nat) : List AuthorityAction :=
  [.selectHead, .selectAgents] ++ List.replicate certificates .selectTunnels ++ [.finishLoad]

def one : SnapshotVersion := .first

def six : SnapshotVersion := ⟨6, by decide, by decide⟩

def seven : SnapshotVersion := ⟨7, by decide, by decide⟩

/-- The authority is opened; an Agent enrolls and a refresh publishes its grant; then two
snapshots are committed, and the first of them is published when the second is durable. -/
def actions : List AuthorityAction :=
  [.commit (granting one 9)] ++ load 1 ++ [.publish, .observe] ++ enrolled.map .enroll ++ load 2 ++
    [.publish, .observe, .commitOwn (granting six 5), .commit (granting seven 4),
      .publish, .observe]

end Example

open Example Enrollment.EnrollmentExample in
/-- Three snapshots were published and seen; the fourth is durable. -/
theorem authority_consistent_committed :
    Guarded (step digest) (assumed digest) init actions ∧
      ∃ s, exec (step digest) init actions = some s ∧
        s.published = some (granting six 5) ∧ s.history.length = 4 ∧
        s.observed.map (·.value) = [6, 2, 1] ∧ (∀ snapshot ∈ s.log, snapshot ∈ s.history) ∧
        s.reply ≠ some (.error .publishInvariant) := by
  have hAssumed : Guarded (step digest) (assumed digest) init actions := by
    decide +kernel
  obtain ⟨s, hExec, hPublished, hLength, hObserved⟩ :
      ∃ s, exec (step digest) init actions = some s ∧ s.published = some (granting six 5) ∧
      s.history.length = 4 ∧ s.observed.map (·.value) = [6, 2, 1] := by decide +kernel
  obtain ⟨hReply, hLogged, -⟩ := authority_consistent hAssumed hExec
  exact ⟨hAssumed, s, hExec, hPublished, hLength, hObserved, hLogged, hReply⟩

end Authority

end TunnelProxy.Control
