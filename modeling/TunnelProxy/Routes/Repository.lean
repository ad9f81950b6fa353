import Mathlib.Data.List.Sort
import TunnelProxy.Lib.BigEndian
import TunnelProxy.Lib.Table
import TunnelProxy.Common.PublicHostname

/-!
# The HTTPS route repository

The versioned catalog of hostname routes and the managed hostnames among them, as the
repository keeps them: a head row with the version, a table of routes and a table of
managed hostnames, with the texts and blobs as they are stored. Every mutation is one
immediate transaction that loads and validates everything first.

`load` is three SELECTs, each outside of a transaction: `loadVersion`, `selectRoutes` and
the join of `validateManagedHostnames`. Here they read one state; `Routes.Refresh` lets
transactions commit between them.
-/

namespace TunnelProxy.Routes

open Common BigEndian List

def maxHttpsRouteRecords : Nat := 64

def managedHostnameEntropyBytes : Nat := 16

def maxManagedHostnameAllocationAttempts : Nat := 16

/-- `tp-` -/
def managedHostnamePrefix : Text := [116, 112, 45]

/-- `0123456789abcdef` -/
def lowerHex : Text := [48, 49, 50, 51, 52, 53, 54, 55, 56, 57, 97, 98, 99, 100, 101, 102]

inductive HttpsRouteRepositoryError where
  | storage
  | corrupt
  | capacityExceeded
  | versionExhausted
  | managedHostnameConflict
  | managedBaseDomainConflict
  | entropyUnavailable
  | allocationAttemptsExhausted
deriving DecidableEq, Repr

/-! ## Managed hostnames -/

abbrev Entropy := FixedBytes managedHostnameEntropyBytes

/-- The two digits of a byte. -/
def hexDigits (byte : UInt8) : Text :=
  [lowerHex.getD (byte >>> 4).toNat 0, lowerHex.getD (byte &&& 0x0f).toNat 0]

def managedLabel (entropy : Entropy) : Text :=
  managedHostnamePrefix ++ entropy.bytes.flatMap hexDigits

def managedHostnameFromEntropy (baseDomain : PublicHostname) (entropy : Entropy) :
    Except PublicHostnameError PublicHostname :=
  PublicHostname.new (managedLabel entropy ++ 46 :: baseDomain.text)

def zeroEntropy : Entropy := ⟨List.replicate managedHostnameEntropyBytes 0, by simp⟩

inductive ManagedHostnameBaseDomainError where
  | invalidHostname
  | tooLong
deriving DecidableEq, Repr

/-- A hostname that leaves room for the label of a managed hostname. -/
@[ext]
structure ManagedHostnameBaseDomain where
  hostname : PublicHostname
  fits : (managedHostnameFromEntropy hostname zeroEntropy).isOk
deriving DecidableEq

def ManagedHostnameBaseDomain.new (value : Text) :
    Except ManagedHostnameBaseDomainError ManagedHostnameBaseDomain :=
  match PublicHostname.new value with
  | .error _ => .error .invalidHostname
  | .ok domain =>
    if h : (managedHostnameFromEntropy domain zeroEntropy).isOk then .ok ⟨domain, h⟩
    else .error .tooLong

/-- `str::strip_suffix` -/
def stripSuffix (suffix text : Text) : Option Text :=
  if suffix <:+ text then some (text.take (text.length - suffix.length)) else none

def isManagedDigit (byte : UInt8) : Bool := (48 ≤ byte && byte ≤ 57) || (97 ≤ byte && byte ≤ 102)

def managedHostnameMatches (hostname : PublicHostname) (baseDomain : ManagedHostnameBaseDomain) :
    Bool :=
  match (stripSuffix baseDomain.hostname.text hostname.text).bind (stripSuffix [46]) with
  | none => false
  | some label =>
    label.length = managedHostnamePrefix.length + managedHostnameEntropyBytes * 2 &&
      managedHostnamePrefix.isPrefixOf label &&
      (label.drop managedHostnamePrefix.length).all isManagedDigit

/-! ## Catalogs -/

/-- A nonzero 64-bit number. -/
@[ext]
structure HttpsRouteCatalogVersion where
  value : Nat
  pos : 0 < value
  lt : value < 2 ^ 64

instance : DecidableEq HttpsRouteCatalogVersion := fun _ _ =>
  decidable_of_iff _ HttpsRouteCatalogVersion.ext_iff.symm

namespace HttpsRouteCatalogVersion

def first : HttpsRouteCatalogVersion := ⟨1, Nat.one_pos, Nat.le_of_ble_eq_true rfl⟩

def new (value : Nat) : Option HttpsRouteCatalogVersion :=
  if hPos : 0 < value then if hLt : value < 2 ^ 64 then some ⟨value, hPos, hLt⟩ else none else none

def next (version : HttpsRouteCatalogVersion) :
    Except HttpsRouteRepositoryError HttpsRouteCatalogVersion :=
  match new (version.value + 1) with
  | some next => .ok next
  | none => .error .versionExhausted

instance : LinearOrder HttpsRouteCatalogVersion :=
  LinearOrder.lift' value fun _ _ h => HttpsRouteCatalogVersion.ext h

end HttpsRouteCatalogVersion

inductive HttpsRouteStatus where
  | enabled
  | disabled
deriving DecidableEq, Repr

def HttpsRouteStatus.asRaw : HttpsRouteStatus → Int
  | .enabled => 1
  | .disabled => 2

def HttpsRouteStatus.fromRaw (value : Int) : Except HttpsRouteRepositoryError HttpsRouteStatus :=
  if value = 1 then .ok .enabled else if value = 2 then .ok .disabled else .error .corrupt

structure HttpsRouteRecord where
  hostname : PublicHostname
  tunnelId : TunnelId
  status : HttpsRouteStatus
deriving DecidableEq

inductive HttpsRouteCatalogError where
  | tooManyRoutes
  | duplicateHostname
deriving DecidableEq, Repr

/-- `ORDER BY hostname`, and the order of `sort_unstable_by`. -/
def sortRoutes (routes : List HttpsRouteRecord) : List HttpsRouteRecord :=
  routes.insertionSort fun a b => (compare a.hostname b.hostname).isLE

/-- `windows(2).any(…)` -/
def hasDuplicate : List HttpsRouteRecord → Bool
  | a :: b :: rest => a.hostname = b.hostname || hasDuplicate (b :: rest)
  | _ => false

theorem sortRoutes_sorted (routes : List HttpsRouteRecord) :
    (sortRoutes routes).Pairwise fun a b => (compare a.hostname b.hostname).isLE := by
  have hTotal : Std.Total fun a b : HttpsRouteRecord =>
      (compare a.hostname b.hostname).isLE = true :=
    ⟨fun a b => by
      rw [Std.OrientedOrd.eq_swap (a := b.hostname)]
      cases compare a.hostname b.hostname <;> simp⟩
  have hTrans : IsTrans HttpsRouteRecord fun a b => (compare a.hostname b.hostname).isLE = true :=
    ⟨fun _ _ _ hab hbc => Std.TransCmp.isLE_trans hab hbc⟩
  exact pairwise_insertionSort _ routes

theorem ascending_of_sorted {routes : List HttpsRouteRecord}
    (hSorted : routes.Pairwise fun a b => (compare a.hostname b.hostname).isLE)
    (hDistinct : hasDuplicate routes = false) :
    routes.Pairwise fun a b => compare a.hostname b.hostname = .lt := by
  have hTrans : IsTrans HttpsRouteRecord fun a b => compare a.hostname b.hostname = .lt :=
    ⟨fun _ _ _ hab hbc => Std.TransCmp.lt_trans hab hbc⟩
  rw [← isChain_iff_pairwise]
  -- along the list two neighbours are ordered and differ
  induction routes with
  | nil => exact isChain_nil
  | cons a rest ih =>
    cases rest with
    | nil => exact isChain_singleton a
    | cons b =>
      simp only [hasDuplicate, Bool.or_eq_false_iff, decide_eq_false_iff_not] at hDistinct
      refine isChain_cons_cons.mpr ⟨?_, ih hSorted.of_cons hDistinct.2⟩
      have hLe := rel_of_pairwise_cons hSorted mem_cons_self
      have hNe : compare a.hostname b.hostname ≠ .eq := by
        rw [ne_eq, Std.compare_eq_iff_eq]
        exact hDistinct.1
      cases hCompare : compare a.hostname b.hostname with
      | lt => rfl
      | eq => exact absurd hCompare hNe
      | gt => rw [hCompare] at hLe; cases hLe

/-- Routes of one version, in ascending order of their hostnames. -/
@[ext]
structure HttpsRouteCatalog where
  version : HttpsRouteCatalogVersion
  routes : List HttpsRouteRecord
  bounded : routes.length ≤ maxHttpsRouteRecords
  ascending : routes.Pairwise fun a b => compare a.hostname b.hostname = .lt
deriving DecidableEq

def HttpsRouteCatalog.new (version : HttpsRouteCatalogVersion) (routes : List HttpsRouteRecord) :
    Except HttpsRouteCatalogError HttpsRouteCatalog :=
  if hBound : maxHttpsRouteRecords < routes.length then .error .tooManyRoutes
  else if hDistinct : hasDuplicate (sortRoutes routes) then .error .duplicateHostname
  else .ok
    { version
      routes := sortRoutes routes
      bounded := by simpa [sortRoutes] using hBound
      ascending := ascending_of_sorted (sortRoutes_sorted routes) (by simpa using hDistinct) }

/-! ## Tables -/

/-- A row of `https_routes`. -/
structure RouteRow where
  hostname : Text
  tunnelId : Text
  status : Int
deriving DecidableEq

/-- A row of `managed_https_hostnames`. -/
structure ManagedRow where
  tunnelId : Text
  hostname : Text
  baseDomain : Text
deriving DecidableEq

/-- The primary key of `https_routes`. -/
def RouteRow.Clash (a b : RouteRow) : Prop := a.hostname = b.hostname

/-- The primary key and the unique column of `managed_https_hostnames`. -/
def ManagedRow.Clash (a b : ManagedRow) : Prop := a.tunnelId = b.tunnelId ∨ a.hostname = b.hostname

instance : DecidableRel RouteRow.Clash := fun a b => decEq a.hostname b.hostname

instance : DecidableRel ManagedRow.Clash :=
  fun a b => inferInstanceAs (Decidable (a.tunnelId = b.tunnelId ∨ a.hostname = b.hostname))

instance : Std.Symm RouteRow.Clash := ⟨fun _ _ h => Eq.symm h⟩

instance : Std.Symm ManagedRow.Clash := ⟨fun _ _ h => h.imp Eq.symm Eq.symm⟩

/-- `https_route_catalog_head`, `https_routes` and `managed_https_hostnames`. -/
structure Db where
  version : List UInt8
  routes : Table RouteRow RouteRow.Clash
  managed : Table ManagedRow ManagedRow.Clash
deriving DecidableEq

/-- `migrate` on a new file. -/
def Db.fresh : Db := ⟨[0, 0, 0, 0, 0, 0, 0, 1], Table.empty, Table.empty⟩

def decodeVersion (bytes : List UInt8) :
    Except HttpsRouteRepositoryError HttpsRouteCatalogVersion :=
  if bytes.length ≠ 8 then .error .corrupt
  else match HttpsRouteCatalogVersion.new (readBE bytes) with
    | some version => .ok version
    | none => .error .corrupt

namespace Db

def loadVersion (db : Db) : Except HttpsRouteRepositoryError HttpsRouteCatalogVersion :=
  decodeVersion db.version

def storeVersion (db : Db) (version : HttpsRouteCatalogVersion) : Db :=
  { db with version := be 8 version.value }

/-- The SELECT of `load_catalog`, `ORDER BY hostname LIMIT 65`. -/
def selectRoutes (db : Db) : List RouteRow :=
  (db.routes.rows.insertionSort fun a b => (compare a.hostname b.hostname).isLE).take
    (maxHttpsRouteRecords + 1)

/-- The SELECT of `validate_managed_hostnames`, `ORDER BY tunnel_id LIMIT 65`, each row
joined with the route of its hostname. -/
def selectManaged (db : Db) : List (ManagedRow × Option RouteRow) :=
  ((db.managed.rows.insertionSort fun a b => (compare a.tunnelId b.tunnelId).isLE).take
    (maxHttpsRouteRecords + 1)).map fun managed =>
      (managed, db.routes.rows.find? (·.hostname = managed.hostname))

end Db

def orCorrupt {ε α : Type} : Except ε α → Except HttpsRouteRepositoryError α
  | .ok value => .ok value
  | .error _ => .error .corrupt

def readRoute (row : RouteRow) : Except HttpsRouteRepositoryError HttpsRouteRecord := do
  let hostname ← orCorrupt (PublicHostname.new row.hostname)
  let tunnelId ← orCorrupt (DurableId.new row.tunnelId)
  let status ← HttpsRouteStatus.fromRaw row.status
  return ⟨hostname, tunnelId, status⟩

/-- The loop of `load_catalog` over its rows. -/
def readRoutes (routes : List HttpsRouteRecord) :
    List RouteRow → Except HttpsRouteRepositoryError (List HttpsRouteRecord)
  | [] => .ok routes
  | row :: rest =>
    if routes.length = maxHttpsRouteRecords then .error .capacityExceeded
    else do
      let route ← readRoute row
      readRoutes (routes ++ [route]) rest

/-- `load_catalog` after its SELECTs. -/
def catalogOf (version : HttpsRouteCatalogVersion) (rows : List RouteRow) :
    Except HttpsRouteRepositoryError HttpsRouteCatalog := do
  let routes ← readRoutes [] rows
  match HttpsRouteCatalog.new version routes with
  | .ok catalog => .ok catalog
  | .error .tooManyRoutes => .error .capacityExceeded
  | .error .duplicateHostname => .error .corrupt

/-- One row of the loop of `validate_managed_hostnames`. -/
def checkManaged (managed : ManagedRow) (route : Option RouteRow) :
    Except HttpsRouteRepositoryError Unit := do
  let tunnelId : TunnelId ← orCorrupt (DurableId.new managed.tunnelId)
  let hostname ← orCorrupt (PublicHostname.new managed.hostname)
  let baseDomain ← orCorrupt (ManagedHostnameBaseDomain.new managed.baseDomain)
  if hostname.text ≠ managed.hostname ∨ baseDomain.hostname.text ≠ managed.baseDomain ∨
      route.map (·.tunnelId) ≠ some tunnelId.text ∨
      route.map (·.status) ≠ some HttpsRouteStatus.enabled.asRaw ∨
      ¬managedHostnameMatches hostname baseDomain then
    .error .corrupt
  else .ok ()

/-- The loop of `validate_managed_hostnames` over its rows. -/
def checkAllManaged (count : Nat) :
    List (ManagedRow × Option RouteRow) → Except HttpsRouteRepositoryError Unit
  | [] => .ok ()
  | (managed, route) :: rest =>
    if count = maxHttpsRouteRecords then .error .corrupt
    else do
      checkManaged managed route
      checkAllManaged (count + 1) rest

namespace Db

def loadCatalog (db : Db) : Except HttpsRouteRepositoryError HttpsRouteCatalog := do
  let version ← db.loadVersion
  catalogOf version db.selectRoutes

def validateManagedHostnames (db : Db) : Except HttpsRouteRepositoryError Unit :=
  checkAllManaged 0 db.selectManaged

/-- `load` when nothing commits between its SELECTs, and the start of every transaction. -/
def load (db : Db) : Except HttpsRouteRepositoryError HttpsRouteCatalog := do
  let catalog ← db.loadCatalog
  db.validateManagedHostnames
  return catalog

def managedHostnameForTunnel (db : Db) (tunnelId : TunnelId) :
    Except HttpsRouteRepositoryError (Option (PublicHostname × ManagedHostnameBaseDomain)) :=
  match db.managed.rows.find? (·.tunnelId = tunnelId.text) with
  | none => .ok none
  | some row => do
    let hostname ← orCorrupt (PublicHostname.new row.hostname)
    let baseDomain ← orCorrupt (ManagedHostnameBaseDomain.new row.baseDomain)
    return some (hostname, baseDomain)

def isManagedHostname (db : Db) (hostname : PublicHostname) : Bool :=
  db.managed.rows.any (·.hostname = hostname.text)

def hostnameExists (db : Db) (hostname : PublicHostname) : Bool :=
  db.routes.rows.any (·.hostname = hostname.text)

/-- `INSERT INTO https_routes` -/
def insertRoute (db : Db) (row : RouteRow) : Except HttpsRouteRepositoryError Db :=
  match db.routes.insert row with
  | some routes => .ok { db with routes }
  | none => .error .storage

/-- `INSERT INTO https_routes … ON CONFLICT(hostname) DO UPDATE` -/
def upsertRoute (db : Db) (row : RouteRow) : Db :=
  match db.routes.insert row with
  | some routes => { db with routes }
  | none =>
    { db with
      routes := db.routes.updateWhere (·.hostname = row.hostname)
        (fun old => { old with tunnelId := row.tunnelId, status := row.status })
        (fun _ _ h => h) }

/-- `INSERT INTO managed_https_hostnames`, with its foreign key. -/
def insertManaged (db : Db) (row : ManagedRow) : Except HttpsRouteRepositoryError Db :=
  if db.routes.rows.any (·.hostname = row.hostname) then
    match db.managed.insert row with
    | some managed => .ok { db with managed }
    | none => .error .storage
  else .error .storage

/-- `DELETE FROM https_routes`, which the foreign key restricts. -/
def deleteRoutes (db : Db) (p : RouteRow → Bool) : Except HttpsRouteRepositoryError Db :=
  if db.routes.rows.any fun row => p row && db.managed.rows.any (·.hostname = row.hostname) then
    .error .storage
  else .ok { db with routes := db.routes.deleteWhere p }

/-- `DELETE FROM managed_https_hostnames WHERE tunnel_id = ?1` -/
def deleteManaged (db : Db) (tunnelId : TunnelId) : Db :=
  { db with managed := db.managed.deleteWhere (·.tunnelId = tunnelId.text) }

end Db

def HttpsRouteRecord.row (record : HttpsRouteRecord) : RouteRow :=
  ⟨record.hostname.text, record.tunnelId.text, record.status.asRaw⟩

/-! ## Mutations -/

inductive HttpsRouteMutationOutcome where
  | applied (previous current : HttpsRouteCatalogVersion)
  | unchanged (version : HttpsRouteCatalogVersion)
deriving DecidableEq

inductive ManagedHostnameAllocationOutcome where
  | allocated (hostname : PublicHostname) (previous current : HttpsRouteCatalogVersion)
  | existing (hostname : PublicHostname) (version : HttpsRouteCatalogVersion)
deriving DecidableEq

inductive ManagedHostnameReleaseOutcome where
  | released (hostname : PublicHostname) (previous current : HttpsRouteCatalogVersion)
  | absent (version : HttpsRouteCatalogVersion)
deriving DecidableEq

/-- The reply of an operation and the database after it. -/
abbrev Committed (α : Type) := Except HttpsRouteRepositoryError α × Db

/-- The writes of `upsert`. -/
def writeRoute (db : Db) (record : HttpsRouteRecord) (version : HttpsRouteCatalogVersion) :
    Except HttpsRouteRepositoryError (Committed HttpsRouteMutationOutcome) := do
  let next ← version.next
  return (.ok (.applied version next), (db.upsertRoute record.row).storeVersion next)

def upsertBody (db : Db) (record : HttpsRouteRecord) :
    Except HttpsRouteRepositoryError (Committed HttpsRouteMutationOutcome) := do
  let catalog ← db.load
  if db.isManagedHostname record.hostname then .error .managedHostnameConflict
  else match catalog.routes.find? (·.hostname = record.hostname) with
    | some existing =>
      if existing.tunnelId = record.tunnelId ∧ existing.status = record.status then
        .ok (.ok (.unchanged catalog.version), db)
      else writeRoute db record catalog.version
    | none =>
      if maxHttpsRouteRecords ≤ catalog.routes.length then .error .capacityExceeded
      else writeRoute db record catalog.version

def upsert (db : Db) (record : HttpsRouteRecord) : Committed HttpsRouteMutationOutcome :=
  transact db (upsertBody db record)

def removeBody (db : Db) (hostname : PublicHostname) :
    Except HttpsRouteRepositoryError (Committed HttpsRouteMutationOutcome) := do
  let catalog ← db.load
  if db.isManagedHostname hostname then .error .managedHostnameConflict
  else if !catalog.routes.any (·.hostname = hostname) then
    .ok (.ok (.unchanged catalog.version), db)
  else do
    let next ← catalog.version.next
    let db ← db.deleteRoutes (·.hostname = hostname.text)
    return (.ok (.applied catalog.version next), db.storeVersion next)

def remove (db : Db) (hostname : PublicHostname) : Committed HttpsRouteMutationOutcome :=
  transact db (removeBody db hostname)

/-- The answers of `fill_entropy`, call by call. -/
abbrev FillEntropy := Nat → Except HttpsRouteRepositoryError Entropy

/-- The loop that picks a hostname: `left` more attempts from the attempt given. -/
def selectHostname (db : Db) (baseDomain : ManagedHostnameBaseDomain) (fillEntropy : FillEntropy)
    (attempt : Nat) : (left : Nat) → Except HttpsRouteRepositoryError (Option PublicHostname)
  | 0 => .ok none
  | left + 1 => do
    let entropy ← fillEntropy attempt
    let candidate ← orCorrupt (managedHostnameFromEntropy baseDomain.hostname entropy)
    if !db.hostnameExists candidate then .ok (some candidate)
    else selectHostname db baseDomain fillEntropy (attempt + 1) left

def allocateBody (db : Db) (tunnelId : TunnelId) (baseDomain : ManagedHostnameBaseDomain)
    (fillEntropy : FillEntropy) :
    Except HttpsRouteRepositoryError (Committed ManagedHostnameAllocationOutcome) := do
  let catalog ← db.load
  let current ← db.managedHostnameForTunnel tunnelId
  match current with
  | some (hostname, existingBaseDomain) =>
    if existingBaseDomain ≠ baseDomain then .error .managedBaseDomainConflict
    else .ok (.ok (.existing hostname catalog.version), db)
  | none =>
    if maxHttpsRouteRecords ≤ catalog.routes.length then .error .capacityExceeded
    else do
      let next ← catalog.version.next
      let selected ← selectHostname db baseDomain fillEntropy 0 maxManagedHostnameAllocationAttempts
      match selected with
      | none => .error .allocationAttemptsExhausted
      | some hostname => do
        let db ← db.insertRoute (HttpsRouteRecord.row ⟨hostname, tunnelId, .enabled⟩)
        let db ← db.insertManaged ⟨tunnelId.text, hostname.text, baseDomain.hostname.text⟩
        return (.ok (.allocated hostname catalog.version next), db.storeVersion next)

def allocateManagedHostname (db : Db) (tunnelId : TunnelId)
    (baseDomain : ManagedHostnameBaseDomain) (fillEntropy : FillEntropy) :
    Committed ManagedHostnameAllocationOutcome :=
  transact db (allocateBody db tunnelId baseDomain fillEntropy)

def releaseBody (db : Db) (tunnelId : TunnelId) :
    Except HttpsRouteRepositoryError (Committed ManagedHostnameReleaseOutcome) := do
  let catalog ← db.load
  let current ← db.managedHostnameForTunnel tunnelId
  match current with
  | none => .ok (.ok (.absent catalog.version), db)
  | some (hostname, _) => do
    let next ← catalog.version.next
    let deleted := db.deleteManaged tunnelId
    let isRoute : RouteRow → Bool :=
      fun row => row.hostname = hostname.text && row.tunnelId = tunnelId.text
    let removed := deleted.routes.rows.countP isRoute
    let db ← deleted.deleteRoutes isRoute
    if removed ≠ 1 then .error .corrupt
    else .ok (.ok (.released hostname catalog.version next), db.storeVersion next)

def releaseManagedHostname (db : Db) (tunnelId : TunnelId) :
    Committed ManagedHostnameReleaseOutcome :=
  transact db (releaseBody db tunnelId)

end TunnelProxy.Routes
