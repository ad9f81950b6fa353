import TunnelProxy.Routes.Directory

/-!
# The operations as edits of the directory

Each mutation of the repository, on a database that shows a directory, either leaves the
database alone or makes one edit of the directory. The edits are functions on directories,
so that they keep what a directory promises; what each of them needs for that is what the
operation has checked before it writes.

* `upsert_cases`, `remove_cases`, `allocate_cases` — what each operation can do
* `allocate_existing`, `release_existing`, `release_absent` — what it does for a tunnel with
  a managed hostname, and without
-/

namespace TunnelProxy.Routes

open Common BigEndian List Directory

/-! ## Edits -/

namespace Directory

/-- Replace the route of a hostname, or add it. -/
def putRoute (routes : List HttpsRouteRecord) (record : HttpsRouteRecord) : List HttpsRouteRecord :=
  if ∃ old ∈ routes, old.hostname = record.hostname then
    routes.map fun old => if old.hostname = record.hostname then record else old
  else routes ++ [record]

variable {routes : List HttpsRouteRecord}

/-- The record is there, and all routes of other hostnames. -/
theorem mem_putRoute {record route : HttpsRouteRecord} : route ∈ putRoute routes record ↔
      route = record ∨ (route ∈ routes ∧ route.hostname ≠ record.hostname) := by
  unfold putRoute
  split_ifs with hOld
  · obtain ⟨old, hMem, hHostname⟩ := hOld
    rw [mem_map]
    constructor
    · rintro ⟨_, hRoute', rfl⟩
      split_ifs with hSame
      · exact .inl rfl
      · exact .inr ⟨hRoute', hSame⟩
    · rintro (rfl | ⟨hRoute, hNe⟩)
      · exact ⟨old, hMem, if_pos hHostname⟩
      · exact ⟨route, hRoute, if_neg hNe⟩
  · have hNew : ∀ old ∈ routes, old.hostname ≠ record.hostname :=
      fun old hMem hEq => hOld ⟨old, hMem, hEq⟩
    rw [mem_append, mem_singleton]
    constructor
    · rintro (hRoute | rfl)
      · exact .inr ⟨hRoute, hNew route hRoute⟩
      · exact .inl rfl
    · rintro (rfl | ⟨hRoute, -⟩)
      · exact .inr rfl
      · exact .inl hRoute

theorem distinct_putRoute (record : HttpsRouteRecord)
    (h : routes.Pairwise (·.hostname ≠ ·.hostname)) :
    (putRoute routes record).Pairwise (·.hostname ≠ ·.hostname) := by
  unfold putRoute
  split_ifs with hOld
  · -- the hostnames of the list do not change
    refine pairwise_map.mpr (h.imp fun {a b} hNe => ?_)
    have hHostname : ∀ old : HttpsRouteRecord,
        (if old.hostname = record.hostname then record else old).hostname = old.hostname := by
      intro _
      split_ifs with hSame
      · exact hSame.symm
      · rfl
    rwa [hHostname, hHostname]
  · refine pairwise_append.mpr ⟨h, pairwise_singleton _ record, ?_⟩
    intro old hMem _ hNew hEq
    rw [mem_singleton.mp hNew] at hEq
    exact hOld ⟨old, hMem, hEq⟩

variable (dir : Directory) (next : HttpsRouteCatalogVersion)

/-- `upsert`, when it writes. -/
def put (record : HttpsRouteRecord) (hFree : ∀ m ∈ dir.managed, m.hostname ≠ record.hostname)
    (hRoom : (∃ old ∈ dir.routes, old.hostname = record.hostname) ∨
      dir.routes.length < maxHttpsRouteRecords) : Directory where
  version := next
  routes := putRoute dir.routes record
  managed := dir.managed
  bounded := by
    unfold putRoute
    split_ifs with hOld
    · simpa using dir.bounded
    · rw [length_append]
      exact hRoom.resolve_left hOld
  distinct := distinct_putRoute record dir.distinct
  apart := dir.apart
  routed m hm := mem_putRoute.mpr (.inr ⟨dir.routed m hm, hFree m hm⟩)
  named := dir.named

/-- `remove`, when it writes. -/
def drop (hostname : PublicHostname) (hFree : ∀ m ∈ dir.managed, m.hostname ≠ hostname) :
    Directory where
  version := next
  routes := dir.routes.filter (·.hostname ≠ hostname)
  managed := dir.managed
  bounded := (length_filter_le _ _).trans dir.bounded
  distinct := dir.distinct.filter _
  apart := dir.apart
  routed m hm := mem_filter.mpr ⟨dir.routed m hm, decide_eq_true (hFree m hm)⟩
  named := dir.named

/-- A hostname is allocated with the route to its tunnel. -/
def allocate (m : ManagedHostname) (hHostname : ∀ route ∈ dir.routes, route.hostname ≠ m.hostname)
    (hTunnel : ∀ old ∈ dir.managed, old.tunnelId ≠ m.tunnelId)
    (hRoom : dir.routes.length < maxHttpsRouteRecords)
    (hNamed : managedHostnameMatches m.hostname m.baseDomain) : Directory where
  version := next
  routes := dir.routes ++ [m.route]
  managed := dir.managed ++ [m]
  bounded := by
    rw [length_append]
    exact hRoom
  distinct := by
    refine pairwise_append.mpr ⟨dir.distinct, pairwise_singleton _ _, ?_⟩
    intro route hRoute _ hNew
    rw [mem_singleton.mp hNew]
    exact hHostname route hRoute
  apart := by
    refine pairwise_append.mpr ⟨dir.apart, pairwise_singleton _ _, ?_⟩
    intro old hOld _ hNew
    rw [mem_singleton.mp hNew]
    exact ⟨hTunnel old hOld, hHostname old.route (dir.routed old hOld)⟩
  routed m' hm' := by
    rcases mem_append.mp hm' with hOld | hNew
    · exact mem_append_left _ (dir.routed m' hOld)
    · rw [mem_singleton.mp hNew]
      exact mem_append_right _ (mem_singleton_self _)
  named m' hm' := by
    rcases mem_append.mp hm' with hOld | hNew
    · exact dir.named m' hOld
    · rw [mem_singleton.mp hNew]
      exact hNamed

/-- A hostname is released, and its route goes with it. -/
def release (m : ManagedHostname) (hm : m ∈ dir.managed) : Directory where
  version := next
  routes := dir.routes.filter (·.hostname ≠ m.hostname)
  managed := dir.managed.filter (·.tunnelId ≠ m.tunnelId)
  bounded := (length_filter_le _ _).trans dir.bounded
  distinct := dir.distinct.filter _
  apart := dir.apart.filter _
  routed m' hm' := by
    obtain ⟨hMem, hTunnel⟩ := mem_filter.mp hm'
    refine mem_filter.mpr ⟨dir.routed m' hMem, decide_eq_true ?_⟩
    intro hHostname
    rw [eq_of_managed hMem hm (.inr hHostname)] at hTunnel
    simp at hTunnel
  named m' hm' := dir.named m' (mem_filter.mp hm').1

end Directory

/-! ## Reads -/

theorem HttpsRouteCatalogVersion.value_next {version next : HttpsRouteCatalogVersion}
    (h : version.next = .ok next) : next.value = version.value + 1 := by
  unfold HttpsRouteCatalogVersion.next HttpsRouteCatalogVersion.new at h
  split at h
  · rename_i hNew
    split_ifs at hNew
    cases hNew
    cases h
    rfl
  · cases h

/-- There is a next version up to the largest 64-bit number. -/
theorem HttpsRouteCatalogVersion.next_cases (version : HttpsRouteCatalogVersion) :
    (∃ next, version.next = .ok next) ∨
      version.value + 1 = 2 ^ 64 ∧ version.next = .error .versionExhausted := by
  have hLt := version.lt
  by_cases hLast : version.value + 1 = 2 ^ 64
  · refine .inr ⟨hLast, ?_⟩
    rw [HttpsRouteCatalogVersion.next, HttpsRouteCatalogVersion.new, dif_pos (Nat.succ_pos _),
      dif_neg (by omega)]
  · refine .inl ⟨⟨version.value + 1, by omega, by omega⟩, ?_⟩
    rw [HttpsRouteCatalogVersion.next, HttpsRouteCatalogVersion.new, dif_pos (Nat.succ_pos _),
      dif_pos (by omega)]

/-- The foreign key does not stop the removal of hostnames that are not managed. -/
theorem Db.deleteRoutes_eq {db : Db} {p : RouteRow → Bool}
    (hFree : ∀ row ∈ db.routes.rows, p row →
      ∀ managed ∈ db.managed.rows, managed.hostname ≠ row.hostname) :
    db.deleteRoutes p = .ok { db with routes := db.routes.deleteWhere p } := by
  refine if_neg ?_
  rw [any_eq_true]
  rintro ⟨row, hRow, hBoth⟩
  obtain ⟨hp, hManaged⟩ := Bool.and_eq_true_iff.mp hBoth
  obtain ⟨managed, hMem, hText⟩ := any_eq_true.mp hManaged
  exact hFree row hRow hp managed hMem (of_decide_eq_true hText)

namespace Db.Shows

variable {db : Db} {dir : Directory} (h : db.Shows dir) {hostname : PublicHostname}
  {m : ManagedHostname}
include h

theorem isManagedHostname_iff :
    db.isManagedHostname hostname = true ↔ ∃ m ∈ dir.managed, m.hostname = hostname := by
  rw [isManagedHostname, h.managed, any_map, any_eq_true]
  constructor
  · rintro ⟨m, hm, hText⟩
    exact ⟨m, hm, PublicHostname.ext (of_decide_eq_true hText)⟩
  · rintro ⟨m, hm, rfl⟩
    exact ⟨m, hm, decide_eq_true rfl⟩

/-- A tunnel has at most one managed hostname, so the first row is its own. -/
theorem managedHostnameForTunnel_of_mem (hm : m ∈ dir.managed) :
    db.managedHostnameForTunnel m.tunnelId = .ok (some (m.hostname, m.baseDomain)) := by
  have hFind : db.managed.rows.find? (·.tunnelId = m.tunnelId.text) = some m.row := by
    rw [h.managed]
    refine Table.find?_unique (mem_map_of_mem hm) (decide_eq_true rfl) ?_
    intro _ hRow hText
    obtain ⟨_, hm', rfl⟩ := mem_map.mp hRow
    rw [eq_of_managed hm' hm (.inl (DurableId.ext (of_decide_eq_true hText)))]
  simp only [managedHostnameForTunnel, hFind, ManagedHostname.row, PublicHostname.new_text,
    ManagedHostnameBaseDomain.new_text, orCorrupt]
  rfl

theorem managedHostnameForTunnel_of_absent {tunnelId : TunnelId}
    (hAbsent : ∀ m ∈ dir.managed, m.tunnelId ≠ tunnelId) :
    db.managedHostnameForTunnel tunnelId = .ok none := by
  have hFind : db.managed.rows.find? (·.tunnelId = tunnelId.text) = none := by
    rw [h.managed, find?_eq_none]
    intro _ hRow hText
    obtain ⟨m, hm, rfl⟩ := mem_map.mp hRow
    exact hAbsent m hm (DurableId.ext (of_decide_eq_true hText))
  simp only [managedHostnameForTunnel, hFind]

/-- The hostname that is picked is new, and of the form that validation asks for. -/
theorem of_selectHostname {baseDomain : ManagedHostnameBaseDomain} {fillEntropy : FillEntropy}
    {attempt left : Nat}
    (hSelect : selectHostname db baseDomain fillEntropy attempt left = .ok (some hostname)) :
    (∀ route ∈ dir.routes, route.hostname ≠ hostname) ∧
      managedHostnameMatches hostname baseDomain := by
  -- induction on the attempts that are left; a refused candidate changes nothing
  induction left generalizing attempt with
  | zero => cases hSelect
  | succ _ ih =>
    obtain ⟨entropy, -, hSelect⟩ := bind_eq_ok.mp hSelect
    obtain ⟨_, hCandidate, hSelect⟩ := bind_eq_ok.mp hSelect
    split_ifs at hSelect with hNew
    · cases hSelect
      have hNew : db.hostnameExists hostname = false := by simpa using hNew
      refine ⟨fun route hRoute hEq => ?_, ?_⟩
      · rw [hostnameExists, h.routes, any_map, any_eq_false] at hNew
        exact hNew route hRoute (decide_eq_true (congrArg PublicHostname.text hEq))
      · obtain ⟨_, hFrom⟩ := exists_fromEntropy baseDomain entropy
        rw [hFrom] at hCandidate
        cases hCandidate
        exact matches_iff.mpr ⟨_, hFrom⟩
    · exact ih hSelect

/-! ## Writes -/

variable {next : HttpsRouteCatalogVersion}

/-- The hostname is new in the table exactly when it is new in the directory. -/
theorem fresh_iff : (∀ row ∈ db.routes.rows, row.hostname ≠ hostname.text) ↔
    ∀ route ∈ dir.routes, route.hostname ≠ hostname := by
  rw [h.routes, forall_mem_map]
  exact forall₂_congr fun _ _ => not_congr PublicHostname.ext_iff.symm

theorem put {record : HttpsRouteRecord} (hFree : ∀ m ∈ dir.managed, m.hostname ≠ record.hostname)
    (hRoom : (∃ old ∈ dir.routes, old.hostname = record.hostname) ∨
      dir.routes.length < maxHttpsRouteRecords) :
    ((db.upsertRoute record.row).storeVersion next).Shows (dir.put next record hFree hRoom) where
  version := rfl
  routes := by
    show (db.upsertRoute record.row).routes.rows = _
    unfold upsertRoute
    cases hInsert : db.routes.insert record.row with
    | some routes =>
      -- a new hostname: the row goes to the end
      obtain ⟨hNew, hRows⟩ := Table.insert_eq_some.mp hInsert
      have hNone : ¬∃ old ∈ dir.routes, old.hostname = record.hostname :=
        fun ⟨old, hOld, hEq⟩ => h.fresh_iff.mp hNew old hOld hEq
      show routes.rows = (putRoute dir.routes record).map HttpsRouteRecord.row
      rw [hRows, h.routes, putRoute, if_neg hNone, map_append, map_singleton]
    | none =>
      have hOld : ∃ old ∈ dir.routes, old.hostname = record.hostname := by
        by_contra hNone
        have hNew : ∀ old ∈ db.routes.rows, ¬old.Clash record.row :=
          h.fresh_iff.mpr fun old hOld hEq => hNone ⟨old, hOld, hEq⟩
        rw [Table.insert, dif_pos hNew] at hInsert
        cases hInsert
      show db.routes.rows.map _ = (putRoute dir.routes record).map HttpsRouteRecord.row
      rw [h.routes, putRoute, if_pos hOld, map_map, map_map]
      refine map_congr_left fun old hMem => ?_
      by_cases hEq : old.hostname = record.hostname
      · simp [HttpsRouteRecord.row, hEq]
      · have hText : old.hostname.text ≠ record.hostname.text :=
          fun hText => hEq (PublicHostname.ext hText)
        simp [HttpsRouteRecord.row, hEq, hText]
  managed := by
    show (db.upsertRoute record.row).managed.rows = _
    unfold upsertRoute
    split <;> exact h.managed

theorem drop (hFree : ∀ m ∈ dir.managed, m.hostname ≠ hostname) :
    Shows (storeVersion
      { db with routes := db.routes.deleteWhere (·.hostname = hostname.text) } next)
      (dir.drop next hostname hFree) where
  version := rfl
  routes := by
    show db.routes.rows.filter _ = (dir.routes.filter _).map HttpsRouteRecord.row
    rw [h.routes, filter_map]
    congr 1
    refine filter_congr fun route _ => ?_
    show (!decide (route.hostname.text = hostname.text)) = decide (route.hostname ≠ hostname)
    rw [Bool.eq_iff_iff]
    simp [PublicHostname.ext_iff]
  managed := h.managed

/-- The two inserts of an allocation succeed. -/
theorem allocate (next : HttpsRouteCatalogVersion)
    (hHostname : ∀ route ∈ dir.routes, route.hostname ≠ m.hostname)
    (hTunnel : ∀ old ∈ dir.managed, old.tunnelId ≠ m.tunnelId)
    (hRoom : dir.routes.length < maxHttpsRouteRecords)
    (hNamed : managedHostnameMatches m.hostname m.baseDomain) :
    ∃ db₁ db₂, db.insertRoute m.route.row = .ok db₁ ∧ db₁.insertManaged m.row = .ok db₂ ∧
      (db₂.storeVersion next).Shows (dir.allocate next m hHostname hTunnel hRoom hNamed) := by
  have hRoute : ∀ row ∈ db.routes.rows, ¬row.Clash m.route.row := h.fresh_iff.mpr hHostname
  have hManaged : ∀ row ∈ db.managed.rows, ¬row.Clash m.row := by
    intro _ hRow hClash
    rw [h.managed] at hRow
    obtain ⟨old, hMem, rfl⟩ := mem_map.mp hRow
    rcases hClash with hText | hText
    · exact hTunnel old hMem (DurableId.ext hText)
    · exact hHostname old.route (dir.routed old hMem) (PublicHostname.ext hText)
  obtain ⟨routes, hRoutes⟩ : ∃ routes, db.routes.insert m.route.row = some routes :=
    ⟨_, dif_pos hRoute⟩
  obtain ⟨managed, hInsert⟩ : ∃ managed, db.managed.insert m.row = some managed :=
    ⟨_, dif_pos hManaged⟩
  have hRows := (Table.insert_eq_some.mp hRoutes).2
  -- the route the foreign key asks for is the one just inserted
  have hReference : routes.rows.any (·.hostname = m.row.hostname) = true := by
    rw [hRows]
    exact any_eq_true.mpr ⟨m.route.row, by simp, decide_eq_true rfl⟩
  refine ⟨{ db with routes }, { db with routes, managed }, ?_, ?_, rfl, ?_, ?_⟩
  · rw [insertRoute, hRoutes]
  · rw [insertManaged, if_pos hReference]
    simp only [hInsert]
  · show routes.rows = (dir.routes ++ [m.route]).map HttpsRouteRecord.row
    rw [hRows, h.routes, map_append, map_singleton]
  · show managed.rows = (dir.managed ++ [m]).map ManagedHostname.row
    rw [(Table.insert_eq_some.mp hInsert).2, h.managed, map_append, map_singleton]

/-- The two deletes of a release succeed, the second on exactly one row. -/
theorem release (next : HttpsRouteCatalogVersion) (hm : m ∈ dir.managed) {isRoute : RouteRow → Bool}
    (hIsRoute : isRoute = fun row =>
      row.hostname = m.hostname.text && row.tunnelId = m.tunnelId.text) :
    (db.deleteManaged m.tunnelId).routes.rows.countP isRoute = 1 ∧
      ∃ db', (db.deleteManaged m.tunnelId).deleteRoutes isRoute = .ok db' ∧
        (db'.storeVersion next).Shows (dir.release next m hm) := by
  -- a route of that hostname is the route of `m`
  have hOnly : ∀ route ∈ dir.routes, (isRoute ∘ HttpsRouteRecord.row) route = true ↔
      route.hostname = m.hostname := by
    intro route hRoute
    constructor
    · intro hRow
      rw [Function.comp_apply, hIsRoute] at hRow
      exact PublicHostname.ext (of_decide_eq_true (Bool.and_eq_true_iff.mp hRow).1)
    · intro hHostname
      rw [eq_of_hostname hRoute (dir.routed m hm) hHostname, hIsRoute]
      simp [HttpsRouteRecord.row, ManagedHostname.route]
  have hManaged : (db.deleteManaged m.tunnelId).managed.rows =
      (dir.managed.filter (·.tunnelId ≠ m.tunnelId)).map ManagedHostname.row := by
    show db.managed.rows.filter _ = _
    rw [h.managed, filter_map]
    congr 1
    refine filter_congr fun old _ => ?_
    show (!decide (old.tunnelId.text = m.tunnelId.text)) = decide (old.tunnelId ≠ m.tunnelId)
    rw [Bool.eq_iff_iff]
    simp [DurableId.ext_iff]
  -- the row that refers to the route is gone already
  have hFree : ∀ row ∈ (db.deleteManaged m.tunnelId).routes.rows, isRoute row →
      ∀ managed ∈ (db.deleteManaged m.tunnelId).managed.rows, managed.hostname ≠ row.hostname := by
    intro row _ hRow _ hMem hText
    rw [hManaged] at hMem
    obtain ⟨_, hOld, rfl⟩ := mem_map.mp hMem
    obtain ⟨hOld, hTunnel⟩ := mem_filter.mp hOld
    rw [hIsRoute] at hRow
    have hHostname : row.hostname = m.hostname.text :=
      of_decide_eq_true (Bool.and_eq_true_iff.mp hRow).1
    rw [eq_of_managed hOld hm (.inr (PublicHostname.ext (hText.trans hHostname)))]
      at hTunnel
    simp at hTunnel
  refine ⟨?_, _, Db.deleteRoutes_eq hFree, rfl, ?_, hManaged⟩
  · show db.routes.rows.countP isRoute = 1
    have hNodup : dir.routes.Nodup := dir.distinct.imp fun hNe hEq => hNe (congrArg _ hEq)
    rw [h.routes, countP_map, ← count_eq_one_of_mem hNodup (dir.routed m hm), count]
    refine countP_congr fun route hRoute => ?_
    rw [hOnly route hRoute, beq_iff_eq]
    exact ⟨fun hEq => eq_of_hostname hRoute (dir.routed m hm) hEq, fun hEq => hEq ▸ rfl⟩
  · show db.routes.rows.filter _ = (dir.routes.filter _).map HttpsRouteRecord.row
    rw [h.routes, filter_map]
    congr 1
    refine filter_congr fun route hRoute => ?_
    have hIff := hOnly route hRoute
    rw [Function.comp_apply] at hIff
    rw [Function.comp_apply, Bool.eq_iff_iff, Bool.not_eq_true', ← Bool.not_eq_true, hIff,
      decide_eq_true_iff]

end Db.Shows

/-! ## Operations -/

section

variable {db : Db} {dir : Directory} (h : db.Shows dir) {m : ManagedHostname}
include h

/-- What `upsert` does. The version grows by one when it writes. -/
theorem upsert_cases (record : HttpsRouteRecord) :
    (∃ error, upsert db record = (.error error, db)) ∨
      upsert db record = (.ok (.unchanged dir.version), db) ∨
      ∃ next hFree hRoom db', upsert db record = (.ok (.applied dir.version next), db') ∧
        dir.version.next = .ok next ∧ db'.Shows (dir.put next record hFree hRoom) := by
  -- once the write is reached, what is needed for the edit has been checked
  have hWrite : ∀ (hFree : ∀ m ∈ dir.managed, m.hostname ≠ record.hostname)
      (hRoom : (∃ old ∈ dir.routes, old.hostname = record.hostname) ∨
        dir.routes.length < maxHttpsRouteRecords),
      upsertBody db record = writeRoute db record dir.version →
      (∃ error, upsert db record = (.error error, db)) ∨
        ∃ next hFree hRoom db', upsert db record = (.ok (.applied dir.version next), db') ∧
          dir.version.next = .ok next ∧ db'.Shows (dir.put next record hFree hRoom) := by
    intro hFree hRoom hBody
    unfold upsert
    rw [hBody, writeRoute]
    cases dir.version.next with
    | error error => exact .inl ⟨error, rfl⟩
    | ok next => exact .inr ⟨next, hFree, hRoom, _, rfl, rfl, h.put hFree hRoom⟩
  by_cases hManaged : db.isManagedHostname record.hostname
  · refine .inl ⟨.managedHostnameConflict, ?_⟩
    rw [upsert, upsertBody, h.load_eq, ok_bind, if_pos hManaged, transact]
  · have hFree : ∀ m ∈ dir.managed, m.hostname ≠ record.hostname :=
      fun m hm hEq => hManaged (h.isManagedHostname_iff.mpr ⟨m, hm, hEq⟩)
    cases hFind : dir.catalog.routes.find? (·.hostname = record.hostname) with
    | some existing =>
      have hMem : existing ∈ dir.routes :=
        mem_sortRoutes.mp (mem_of_find?_eq_some hFind)
      have hEq : existing.hostname = record.hostname := by simpa using find?_some hFind
      by_cases hSame : existing.tunnelId = record.tunnelId ∧ existing.status = record.status
      · refine .inr (.inl ?_)
        simp only [upsert, upsertBody, h.load_eq, ok_bind, if_neg hManaged, hFind, if_pos hSame,
          transact]
        rfl
      · refine (hWrite hFree (.inl ⟨existing, hMem, hEq⟩) ?_).imp_right Or.inr
        simp only [upsertBody, h.load_eq, ok_bind, if_neg hManaged, hFind, if_neg hSame]
        rfl
    | none =>
      by_cases hFull : maxHttpsRouteRecords ≤ dir.catalog.routes.length
      · refine .inl ⟨.capacityExceeded, ?_⟩
        simp only [upsert, upsertBody, h.load_eq, ok_bind, if_neg hManaged, hFind, if_pos hFull,
          transact]
      · have hRoom : dir.routes.length < maxHttpsRouteRecords := by
          simpa [catalog, sortRoutes] using hFull
        refine (hWrite hFree (.inr hRoom) ?_).imp_right Or.inr
        simp only [upsertBody, h.load_eq, ok_bind, if_neg hManaged, hFind, if_neg hFull]
        rfl

/-- What `remove` does. -/
theorem remove_cases (hostname : PublicHostname) :
    (∃ error, remove db hostname = (.error error, db)) ∨
      remove db hostname = (.ok (.unchanged dir.version), db) ∨
      ∃ next hFree db', remove db hostname = (.ok (.applied dir.version next), db') ∧
        dir.version.next = .ok next ∧ db'.Shows (dir.drop next hostname hFree) := by
  by_cases hManaged : db.isManagedHostname hostname
  · refine .inl ⟨.managedHostnameConflict, ?_⟩
    rw [remove, removeBody, h.load_eq, ok_bind, if_pos hManaged, transact]
  · -- routes of managed hostnames are out of reach, so the directory stays sound
    have hFree : ∀ m ∈ dir.managed, m.hostname ≠ hostname :=
      fun m hm hEq => hManaged (h.isManagedHostname_iff.mpr ⟨m, hm, hEq⟩)
    by_cases hAbsent : (!dir.catalog.routes.any (·.hostname = hostname)) = true
    · refine .inr (.inl ?_)
      rw [remove, removeBody, h.load_eq, ok_bind, if_neg hManaged, if_pos hAbsent, transact]
      rfl
    · cases hNext : dir.version.next with
      | error error =>
        refine .inl ⟨error, ?_⟩
        rw [remove, removeBody, h.load_eq, ok_bind, if_neg hManaged, if_neg hAbsent,
          catalog_version, hNext]
        rfl
      | ok next =>
        have hDelete : db.deleteRoutes (·.hostname = hostname.text) =
            .ok { db with routes := db.routes.deleteWhere (·.hostname = hostname.text) } := by
          refine Db.deleteRoutes_eq fun row _ hRow managed hMem hText => ?_
          rw [h.managed] at hMem
          obtain ⟨m, hm, rfl⟩ := mem_map.mp hMem
          exact hFree m hm (PublicHostname.ext (hText.trans (of_decide_eq_true hRow)))
        refine .inr (.inr ⟨next, hFree, _, ?_, rfl, h.drop hFree⟩)
        rw [remove, removeBody, h.load_eq, ok_bind, if_neg hManaged, if_neg hAbsent,
          catalog_version, hNext, ok_bind, hDelete]
        rfl

/-- A tunnel that has a managed hostname is given it again. -/
theorem allocate_existing (hm : m ∈ dir.managed) (fillEntropy : FillEntropy) :
    allocateManagedHostname db m.tunnelId m.baseDomain fillEntropy =
      (.ok (.existing m.hostname dir.version), db) := by
  rw [allocateManagedHostname, allocateBody, h.load_eq, ok_bind,
    h.managedHostnameForTunnel_of_mem hm, ok_bind]
  simp only [ne_eq, not_true_eq_false, if_false, transact]
  rfl

/-- What an allocation does, whatever entropy it gets. -/
theorem allocate_cases (tunnelId : TunnelId) (baseDomain : ManagedHostnameBaseDomain)
    (fillEntropy : FillEntropy) :
    (∃ error, allocateManagedHostname db tunnelId baseDomain fillEntropy = (.error error, db)) ∨
      (∃ m ∈ dir.managed, m.tunnelId = tunnelId ∧ m.baseDomain = baseDomain ∧
        allocateManagedHostname db tunnelId baseDomain fillEntropy =
          (.ok (.existing m.hostname dir.version), db)) ∨
      ∃ hostname next hHostname hTunnel hRoom hNamed db',
        allocateManagedHostname db tunnelId baseDomain fillEntropy =
          (.ok (.allocated hostname dir.version next), db') ∧ dir.version.next = .ok next ∧
        db'.Shows (dir.allocate next ⟨tunnelId, hostname, baseDomain⟩ hHostname hTunnel hRoom
          hNamed) := by
  by_cases hOwned : ∃ m ∈ dir.managed, m.tunnelId = tunnelId
  · obtain ⟨m, hm, rfl⟩ := hOwned
    by_cases hBase : m.baseDomain = baseDomain
    · subst hBase
      exact .inr (.inl ⟨m, hm, rfl, rfl, allocate_existing h hm fillEntropy⟩)
    · refine .inl ⟨.managedBaseDomainConflict, ?_⟩
      rw [allocateManagedHostname, allocateBody, h.load_eq, ok_bind,
        h.managedHostnameForTunnel_of_mem hm, ok_bind]
      simp only [ne_eq, hBase, not_false_eq_true, if_true, transact]
  · have hTunnel : ∀ old ∈ dir.managed, old.tunnelId ≠ tunnelId :=
      fun old hOld hEq => hOwned ⟨old, hOld, hEq⟩
    -- everything from the capacity check on
    have hBody : ∀ {body}, allocateBody db tunnelId baseDomain fillEntropy = body →
        allocateManagedHostname db tunnelId baseDomain fillEntropy = transact db body :=
      fun hBody => congrArg (transact db) hBody
    simp only [allocateBody, h.load_eq, h.managedHostnameForTunnel_of_absent hTunnel, ok_bind,
      catalog_version] at hBody
    by_cases hFull : maxHttpsRouteRecords ≤ dir.catalog.routes.length
    · rw [if_pos hFull] at hBody
      exact .inl ⟨.capacityExceeded, hBody rfl⟩
    · have hRoom : dir.routes.length < maxHttpsRouteRecords := by
        simpa [catalog, sortRoutes] using hFull
      rw [if_neg hFull] at hBody
      cases hNext : dir.version.next with
      | error error =>
        rw [hNext] at hBody
        exact .inl ⟨error, hBody rfl⟩
      | ok next =>
        rw [hNext, ok_bind] at hBody
        cases hSelect : selectHostname db baseDomain fillEntropy 0
            maxManagedHostnameAllocationAttempts with
        | error error =>
          rw [hSelect] at hBody
          exact .inl ⟨error, hBody rfl⟩
        | ok selected =>
          rw [hSelect, ok_bind] at hBody
          cases selected with
          | none => exact .inl ⟨.allocationAttemptsExhausted, hBody rfl⟩
          | some hostname =>
            obtain ⟨hHostname, hNamed⟩ := h.of_selectHostname hSelect
            obtain ⟨db₁, db₂, hRoute, hManaged, hShows⟩ :=
              h.allocate next (m := ⟨tunnelId, hostname, baseDomain⟩)
                hHostname hTunnel hRoom hNamed
            have hRoute' : db.insertRoute (HttpsRouteRecord.row ⟨hostname, tunnelId, .enabled⟩) =
                .ok db₁ := hRoute
            have hManaged' : db₁.insertManaged
                ⟨tunnelId.text, hostname.text, baseDomain.hostname.text⟩ = .ok db₂ := hManaged
            simp only [hRoute', hManaged', ok_bind] at hBody
            exact .inr (.inr ⟨hostname, next, hHostname, hTunnel, hRoom, hNamed, _,
              hBody rfl, rfl, hShows⟩)

/-- A tunnel that has a managed hostname gives it up, unless the version is the last one. -/
theorem release_existing (hm : m ∈ dir.managed) : (dir.version.value + 1 = 2 ^ 64 ∧
        releaseManagedHostname db m.tunnelId = (.error .versionExhausted, db)) ∨
      ∃ next db', releaseManagedHostname db m.tunnelId =
          (.ok (.released m.hostname dir.version next), db') ∧
        dir.version.next = .ok next ∧ db'.Shows (dir.release next m hm) := by
  have hBody : ∀ {body}, releaseBody db m.tunnelId = body →
      releaseManagedHostname db m.tunnelId = transact db body :=
    fun hBody => congrArg (transact db) hBody
  simp only [releaseBody, h.load_eq, h.managedHostnameForTunnel_of_mem hm, ok_bind,
    catalog_version] at hBody
  rcases dir.version.next_cases with ⟨next, hNext⟩ | ⟨hLast, hNext⟩
  · obtain ⟨hOne, _, hDelete, hShows⟩ := h.release next hm rfl
    simp only [hNext, ok_bind, hOne, hDelete, ne_eq, not_true_eq_false, if_false] at hBody
    exact .inr ⟨next, _, hBody rfl, hNext, hShows⟩
  · rw [hNext] at hBody
    exact .inl ⟨hLast, hBody rfl⟩

/-- There is nothing to release. -/
theorem release_absent {tunnelId : TunnelId} (hAbsent : ∀ m ∈ dir.managed, m.tunnelId ≠ tunnelId) :
    releaseManagedHostname db tunnelId = (.ok (.absent dir.version), db) := by
  rw [releaseManagedHostname, releaseBody, h.load_eq, ok_bind,
    h.managedHostnameForTunnel_of_absent hAbsent, ok_bind]
  rfl

end

end TunnelProxy.Routes
