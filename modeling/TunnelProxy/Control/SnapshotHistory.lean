import TunnelProxy.Control.SnapshotCodec
import TunnelProxy.Control.EnrollmentSteps

/-!
# The durable snapshot over time

The history of the database, as the snapshots it would load: every transaction of the
snapshot repository and of the enrollment repository leaves the tables as they are or makes
them load as a newer snapshot.

* `commit_cases` — what a commit of the snapshot repository does
* `advances_commit`, `run_advances`, `operations_advance` — the tables never go back
-/

namespace TunnelProxy.Control

open Common

/-! ## Transactions and the loaded snapshot -/

variable {sha256 : Hash} {tables tables' : SnapshotTables}
  {current snapshot : VersionedAuthorizationSnapshot}

namespace SnapshotTables

theorem head_eq_none_of_loadLatest (h : tables.loadLatest sha256 = .ok none) :
    tables.head = none := by
  cases hHead : tables.head with
  | none => rfl
  | some head =>
    rw [loadLatest_of_head hHead] at h
    cases hCheck : checkLoaded sha256 head tables.grants <;> simp [hCheck, Except.map] at h

theorem loadLatest_writeHead {digest : Digest}
    (h : snapshotDigest sha256 snapshot.snapshot = .ok digest) :
    (tables.writeHead snapshot.version digest snapshot.snapshot.grants).loadLatest sha256 =
      .ok (some snapshot) := by
  have hGrants : (tables.writeHead snapshot.version digest snapshot.snapshot.grants).grants =
      snapshot.snapshot.grants := by
    show (tables.write snapshot.version digest snapshot.snapshot.grants).grants = _
    exact grants_write
  rw [loadLatest_of_head rfl, hGrants, checkLoaded, AuthorizationSnapshot.new_grants]
  simp [h, Except.map]

variable {last : Option VersionedAuthorizationSnapshot}

/-- **What a commit does.** It fails, it finds the digest of its own snapshot under its own
version, or its snapshot is loaded afterwards and is newer than the one before. -/
theorem commit_cases (snapshot : VersionedAuthorizationSnapshot)
    (hLoad : tables.loadLatest sha256 = .ok last) :
    (∃ error, tables.commit sha256 snapshot = (.error error, tables)) ∨
      (∃ outcome current digest, tables.commit sha256 snapshot = (.ok outcome, tables) ∧
        last = some current ∧ snapshot.version = current.version ∧
        snapshotDigest sha256 snapshot.snapshot = .ok digest ∧
        snapshotDigest sha256 current.snapshot = .ok digest) ∨
      ∃ outcome tables', tables.commit sha256 snapshot = (.ok outcome, tables') ∧
        tables'.loadLatest sha256 = .ok (some snapshot) ∧
        ∀ current, last = some current → current.version < snapshot.version := by
  unfold commit
  cases hDigest : snapshotDigest sha256 snapshot.snapshot with
  | error => exact .inl ⟨_, rfl⟩
  | ok digest =>
    dsimp only
    cases last with
    | none =>
      rw [head_eq_none_of_loadLatest hLoad]
      exact .inr (.inr ⟨_, _, rfl, loadLatest_writeHead hDigest, nofun⟩)
    | some current =>
      obtain ⟨_, hHead, hVersion, hHeadDigest⟩ := head_of_loadLatest hLoad
      rw [hHead]
      dsimp only
      split_ifs with hStale hSame hEqual
      · exact .inl ⟨_, rfl⟩
      · exact .inr (.inl ⟨_, current, digest, rfl, rfl, hSame.trans hVersion, rfl,
          hEqual ▸ hHeadDigest⟩)
      · exact .inl ⟨_, rfl⟩
      · refine .inr (.inr ⟨_, _, rfl, loadLatest_writeHead hDigest, ?_⟩)
        rintro _ ⟨⟩
        rw [← hVersion]
        exact (le_of_not_gt hStale).lt_of_ne (Ne.symm hSame)

/-- The tables stay as they are, or load as a newer snapshot. -/
def Advances (sha256 : Hash) (tables tables' : SnapshotTables) : Prop :=
  tables' = tables ∨ ∃ snapshot, tables'.loadLatest sha256 = .ok (some snapshot) ∧
    ∀ current, tables.loadLatest sha256 = .ok (some current) → current.version < snapshot.version

theorem Advances.trans {a b c : SnapshotTables} (h : Advances sha256 a b)
    (h' : Advances sha256 b c) : Advances sha256 a c := by
  rcases h' with rfl | ⟨snapshot, hLoad, hNewer⟩
  · exact h
  rcases h with rfl | ⟨next, hNext, hNewer'⟩
  · exact .inr ⟨snapshot, hLoad, hNewer⟩
  · refine .inr ⟨snapshot, hLoad, fun current hCurrent => ?_⟩
    exact (hNewer' current hCurrent).trans (hNewer next hNext)

theorem advances_commit (snapshot : VersionedAuthorizationSnapshot)
    (hLoad : tables.loadLatest sha256 = .ok last) :
    Advances sha256 tables (tables.commit sha256 snapshot).2 := by
  rcases commit_cases snapshot hLoad with
    ⟨error, h⟩ | ⟨outcome, current, digest, h, -⟩ | ⟨outcome, tables', h, hLoad', hNewer⟩
  · exact .inl (by rw [h])
  · exact .inl (by rw [h])
  · refine .inr ⟨snapshot, by rw [h]; exact hLoad', fun current hCurrent => ?_⟩
    exact hNewer current (Except.ok.inj (hLoad.symm.trans hCurrent))

end SnapshotTables

namespace Enrollment

/-- **What an enrollment transaction does to the snapshot.** -/
theorem run_advances (db : Db) (op : Op) :
    SnapshotTables.Advances sha256 db.snapshot (run sha256 db op).2.snapshot := by
  cases run_hasEffect db op with
  | aside _ hSnapshot => exact .inl hSnapshot
  | edits hLoad hLoad' hNewer =>
    refine hNewer.imp_right fun hLt => ⟨_, loadLatest_of_loadSnapshot hLoad', fun _ hCurrent => ?_⟩
    cases (loadLatest_of_loadSnapshot hLoad).symm.trans hCurrent
    exact hLt

/-- **No sequence of operations takes the durable snapshot back**, whatever the database holds:
the tables are untouched, or load as a newer version. -/
theorem operations_advance (db : Db) (ops : List Op) : SnapshotTables.Advances sha256 db.snapshot
    (ops.foldl (fun db op => (run sha256 db op).2) db).snapshot := by
  induction ops generalizing db with
  | nil => exact .inl rfl
  -- `db` is arbitrary: the invariants of reached databases are not needed
  | cons op _ ih => exact (run_advances db op).trans (ih _)

end Enrollment

end TunnelProxy.Control
