import TunnelProxy.Control.Authority

/-!
# Loads and commits of other connections

`load_latest` reads the head in a statement of its own, and then the certificates with their
tunnels, outside a transaction. A commit between the two gives the load the head of one
snapshot and the rows of another: the digest does not match, the load reports `Corrupt`, the
refresh fails and the Control Plane stops (`torn_load_corrupt`). When no commit at that point
changes the tables, every load returns a snapshot that was durable since it began, and every
refresh succeeds (`undisturbed_load`).
-/

namespace TunnelProxy.Control.Authority

open Common Transition List

variable {sha256 : Hash} {s s' : Authority} {a : AuthorityAction}

/-- No transaction changes the snapshot tables after a load has read the head and before it
reads the certificates. -/
def undisturbed (sha256 : Hash) (s : Authority) : AuthorityAction → Prop
  | .commit snapshot =>
    ∀ head, s.call = .head head → (s.db.snapshot.commit sha256 snapshot).2 = s.db.snapshot
  | .enroll op =>
    ∀ head, s.call = .head head → (Enrollment.run sha256 s.db op).2.snapshot = s.db.snapshot
  | .commitOwn snapshot => s.collisionFree sha256 snapshot
  | _ => True

/-- The refresh branch of `ControlPlaneRuntime::run_until_shutdown`: the error the runtime
returns with, if it does not go on. -/
def refreshStops :
    Except PersistentSnapshotAuthorityError Unit → Option PersistentSnapshotAuthorityError
  | .ok () => none
  | .error error => some error

/-! ## Reading one state -/

/-- The head that a load has read is the durable one; and once it reads rows, they are those
of tables that have held a durable snapshot under this head since the load began. -/
def Reads (sha256 : Hash) (s : Authority) : Prop :=
  match s.call with
  | .head head => s.db.snapshot.head = some head ∧ ∀ durable ∈ s.history.head?, durable ∈ s.during
  | .rows head tables rows grants => tables.head = some head ∧
    grants ++ rows.map (fun row => ⟨row.1, row.2, tables.tunnelsOf row.1⟩) = tables.grants ∧
    ∃ durable ∈ s.during, tables.loadLatest sha256 = .ok (some durable)
  | _ => True

structure Undisturbed (sha256 : Hash) (s : Authority) : Prop where
  consistent : s.Consistent sha256
  reads : s.Reads sha256

theorem reads_of_not_loading (h : s.call.loading = false) : s.Reads sha256 := by
  unfold Reads
  cases hCall : s.call with
  | head | rows =>
    rw [hCall] at h
    cases h
  | _ => trivial

/-- What a load returns is what the tables held that it has read. -/
theorem Undisturbed.loadResult (h : s.Undisturbed sha256)
    {result : Except SnapshotRepositoryError VersionedAuthorizationSnapshot}
    (hResult : s.loadResult sha256 = some result) :
    ∃ durable ∈ s.during, result = .ok durable := by
  have hReads := h.reads
  unfold Authority.loadResult at hResult
  split at hResult
  · rename_i head tables grants hCall
    cases hResult
    rw [Reads, hCall] at hReads
    obtain ⟨hHead, hGrants, durable, hDurable, hLoads⟩ := hReads
    rw [map_nil, append_nil] at hGrants
    rw [SnapshotTables.loadLatest_of_head hHead, ← hGrants] at hLoads
    refine ⟨durable, hDurable, ?_⟩
    cases hCheck : checkLoaded sha256 head grants with
    | error => simp [hCheck, Except.map] at hLoads
    | ok => simpa [hCheck, Except.map] using hLoads
  · cases hResult

theorem Undisturbed.assumed (h : s.Undisturbed sha256) (hGuard : s.undisturbed sha256 a) :
    s.assumed sha256 a := by
  cases a with
  | commitOwn => exact hGuard
  | finishLoad =>
    intro _ hResult snapshot hSnapshot
    obtain ⟨_, hDurable, rfl⟩ := h.loadResult hResult
    cases hSnapshot
    exact hDurable
  | _ => trivial

/-- A transaction meets no load, or leaves alone what the load has still to read. -/
theorem Undisturbed.store (h : s.Undisturbed sha256) {db : Enrollment.Db}
    (hConsistent : (s.store sha256 db).Consistent sha256)
    (hGuard : ∀ head, s.call = .head head → db.snapshot = s.db.snapshot) :
    (s.store sha256 db).Undisturbed sha256 := by
  refine ⟨hConsistent, ?_⟩
  have hReads := h.reads
  unfold Reads at hReads ⊢
  rw [store_call]
  cases hCall : s.call with
  | head head =>
    rw [hCall] at hReads
    have hSame := hGuard head hCall
    rw [h.consistent.store_same hSame]
    exact ⟨hSame ▸ hReads.1, hReads.2⟩
  | rows =>
    rw [hCall] at hReads
    obtain ⟨hHead, hGrants, durable, hDurable, hLoads⟩ := hReads
    exact ⟨hHead, hGrants, durable, mem_store hDurable, hLoads⟩
  | _ => trivial

theorem undisturbed_of_not_loading (hConsistent : s.Consistent sha256)
    (hLoading : s.call.loading = false) : s.Undisturbed sha256 :=
  ⟨hConsistent, reads_of_not_loading hLoading⟩

theorem undisturbed_step (h : s.Undisturbed sha256) (hGuard : s.undisturbed sha256 a)
    (hStep : s.step sha256 a = some s') : s'.Undisturbed sha256 := by
  have hConsistent : s'.Consistent sha256 := consistent_step h.consistent (h.assumed hGuard) hStep
  cases a with
  | commit | enroll =>
    cases hStep
    exact h.store hConsistent hGuard
  | commitOwn =>
    simp only [step] at hStep
    split at hStep
    · split at hStep <;> cases hStep <;> exact undisturbed_of_not_loading hConsistent rfl
    · cases hStep
  | selectHead =>
    simp only [step] at hStep
    split at hStep
    · split at hStep
      · cases hStep
        exact undisturbed_of_not_loading hConsistent rfl
      · rename_i hHead
        cases hStep
        exact ⟨hConsistent, hHead, fun _ hDurable => Option.mem_toList.mpr hDurable⟩
    · cases hStep
  | selectAgents =>
    have hReads := h.reads
    simp only [step] at hStep
    split at hStep
    · rename_i head hCall
      cases hStep
      rw [Reads, hCall] at hReads
      obtain ⟨hHead, hCurrent⟩ := hReads
      refine ⟨hConsistent, hHead, nil_append _, ?_⟩
      -- there is a head, so the tables hold a snapshot
      have hLoads := h.consistent.loads
      cases hDurable : s.history.head? with
      | none =>
        rw [hDurable] at hLoads
        cases hHead.symm.trans (SnapshotTables.head_eq_none_of_loadLatest hLoads)
      | some durable => exact ⟨durable, hCurrent durable hDurable, hDurable ▸ hLoads⟩
    · cases hStep
  | selectTunnels =>
    have hReads := h.reads
    simp only [step] at hStep
    split at hStep
    · rename_i hCall
      cases hStep
      rw [Reads, hCall] at hReads
      obtain ⟨hHead, hGrants, hDurable⟩ := hReads
      refine ⟨hConsistent, hHead, ?_, hDurable⟩
      rw [← hGrants, map_cons, append_assoc, singleton_append]
    · cases hStep
  | finishLoad =>
    simp only [step] at hStep
    split at hStep <;> cases hStep <;> exact undisturbed_of_not_loading hConsistent rfl
  | publish =>
    have hDone : ∀ snapshot, s.Publishable snapshot →
        (s.publishes snapshot).call.loading = false := by
      intro _ hSnapshot
      rw [h.consistent.publishes_eq hSnapshot]
      rfl
    simp only [step] at hStep
    split at hStep
    · rename_i snapshot hCall
      cases hStep
      exact undisturbed_of_not_loading hConsistent
        (hDone snapshot (h.consistent.pending snapshot (.inl hCall)))
    · rename_i snapshot hCall
      cases hStep
      exact undisturbed_of_not_loading hConsistent
        (hDone snapshot (h.consistent.pending snapshot (.inr hCall)))
    · cases hStep
  | cancel | restart =>
    cases hStep
    exact undisturbed_of_not_loading hConsistent rfl
  | observe =>
    obtain ⟨current, -, rfl⟩ := Option.map_eq_some_iff.mp hStep
    exact ⟨hConsistent, h.reads⟩

/-- **Undisturbed loads.** In every run in which no transaction changes the snapshot tables
between the two parts of a load, every load returns a snapshot that was durable since it began,
every refresh whose load has returned succeeds and lets the Control Plane go on, and a load
finds no snapshot only if none was ever committed. -/
theorem undisturbed_load {actions : List AuthorityAction}
    (hGuard : Guarded (step sha256) (undisturbed sha256) init actions)
    (hRun : exec (step sha256) init actions = some s) :
    (∀ result, s.loadResult sha256 = some result → ∃ snapshot ∈ s.during, result = .ok snapshot) ∧
      (∀ snapshot, s.call = .loaded snapshot →
        ∃ reply, (s.publishes snapshot).reply = some reply ∧ refreshStops reply = none) ∧
      (s.db.snapshot.head = none → s.history = []) := by
  have h : s.Undisturbed sha256 := exec_induction_guarded
    (fun _ _ _ h hGuard hStep => undisturbed_step h hGuard hStep)
    (undisturbed_of_not_loading consistent_init rfl) hGuard hRun
  refine ⟨?_, ?_, ?_⟩
  · exact fun _ hResult => h.loadResult hResult
  · intro snapshot hCall
    rw [h.consistent.publishes_eq (h.consistent.pending snapshot (.inl hCall))]
    exact ⟨.ok (), rfl, rfl⟩
  · intro hHead
    have hLoads := h.consistent.loads
    rw [SnapshotTables.loadLatest, hHead] at hLoads
    exact head?_eq_none_iff.mp (Except.ok.inj hLoads).symm

/-! ## Runs -/

open Example Enrollment.EnrollmentExample

/-- The authority is open, and another connection commits between two refreshes, and again
when the second has read the certificates. -/
def quietRun : List AuthorityAction :=
  [.commit (granting one 9)] ++ load 1 ++ [.publish, .commit (granting six 5), .selectHead,
    .selectAgents, .commit (granting seven 4), .selectTunnels, .finishLoad]

/-- The second refresh publishes the snapshot that was durable when it began. -/
theorem undisturbed_load_refreshed :
    Guarded (step digest) (undisturbed digest) init quietRun ∧
      ∃ s, exec (step digest) init quietRun = some s ∧
        s.call = .loaded (granting six 5) ∧ s.history.head? = some (granting seven 4) ∧
        ∃ reply, (s.publishes (granting six 5)).reply = some reply ∧ refreshStops reply = none := by
  have hGuard : Guarded (step digest) (undisturbed digest) init quietRun :=
    ⟨nofun, trivial, trivial, trivial, trivial, trivial, nofun, trivial, trivial, nofun, trivial,
      trivial, trivial⟩
  obtain ⟨s, hExec, hCall, hDurable⟩ : ∃ s, exec (step digest) init quietRun = some s ∧
      s.call = .loaded (granting six 5) ∧ s.history.head? = some (granting seven 4) := by
    decide +kernel
  exact ⟨hGuard, s, hExec, hCall, hDurable, (undisturbed_load hGuard hExec).2.1 _ hCall⟩

/-- The commit comes after the second load has read the head and before it reads the rest. -/
def tornRun : List AuthorityAction :=
  [.commit (granting one 9)] ++ load 1 ++
    [.publish, .selectHead, .commit (granting six 5), .selectAgents, .selectTunnels]

/-- Two snapshots were committed, and both were durable during the load; but the load
returns `Corrupt`, and the refresh stops the Control Plane with it. -/
theorem torn_load_corrupt : ∃ s s', exec (step digest) init tornRun = some s ∧
      s.during = [granting six 5, granting one 9] ∧
      s.loadResult digest = some (.error .corrupt) ∧ s.step digest .finishLoad = some s' ∧
      ∃ reply, s'.reply = some reply ∧ refreshStops reply = some (.repository .corrupt) := by
  obtain ⟨s, hExec, hDuring, hResult⟩ : ∃ s, exec (step digest) init tornRun = some s ∧
      s.during = [granting six 5, granting one 9] ∧
      s.loadResult digest = some (.error .corrupt) := by decide +kernel
  refine ⟨s, s.replies (.error (.repository .corrupt)), hExec, hDuring, hResult, ?_, _, rfl, rfl⟩
  simp only [step, hResult]

end TunnelProxy.Control.Authority
