import TunnelProxy.Lib.Transition
import TunnelProxy.Routes.Repository

/-!
# What the route tables stand for

A `Directory` is what the repository is for: at most 64 routes of distinct hostnames, and
managed hostnames, one to a tunnel, each of them an enabled route of its tunnel under its
base domain. All of that is part of the type. `Db.Shows` relates a database to the
directory it stores.

* `fromEntropy_exact` — which hostnames are generated, and that generating one never fails
* `Db.Shows.load_eq` — a database that shows a directory loads as its catalog, so neither
  loading nor validating ever fails

That every operation keeps the database as it is, or makes the one edit of the directory that
it stands for, is shown in `Routes.Operations`.
-/

namespace TunnelProxy.Routes

open Common BigEndian List PublicHostname

/-! ## Generated hostnames -/

theorem stripSuffix_eq_some {suffix text rest : Text} :
    stripSuffix suffix text = some rest ↔ text = rest ++ suffix := by
  constructor
  · intro h
    unfold stripSuffix at h
    split_ifs at h with hSuffix
    obtain ⟨before, rfl⟩ := hSuffix
    obtain rfl : before = rest := by simpa using h
    rfl
  · rintro rfl
    simp [stripSuffix]

theorem hexDigits_managed : ∀ byte, (hexDigits byte).all isManagedDigit := by decide +kernel

theorem hexDigits_injective : Function.Injective hexDigits := by
  -- the value of the digits gives the byte back
  have hValue : ∀ byte, UInt8.ofNat ((hexDigits byte).foldl
      (fun sum digit => sum * 16 + (toDigit 16 digit).getD 0) 0) = byte := by decide +kernel
  intro a b h
  rw [← hValue a, h, hValue]

theorem exists_hexDigits {a b : UInt8} (hA : isManagedDigit a) (hB : isManagedDigit b) :
    ∃ byte, hexDigits byte = [a, b] := by
  have hIndex : ∀ digit, isManagedDigit digit → ∃ n : Fin 16, lowerHex.getD n 0 = digit := by
    decide +kernel
  have hByte : ∀ n m : Fin 16, hexDigits (UInt8.ofNat (n * 16 + m)) =
      [lowerHex.getD n 0, lowerHex.getD m 0] := by decide +kernel
  obtain ⟨n, hN⟩ := hIndex a hA
  obtain ⟨m, hM⟩ := hIndex b hB
  exact ⟨_, by rw [hByte n m, hN, hM]⟩

theorem flatMap_hexDigits_injective : Function.Injective (flatMap hexDigits) := by
  -- by induction on the bytes: every byte has two digits
  intro bytes
  induction bytes with
  | nil =>
    intro bytes' h
    cases bytes' with
    | nil => rfl
    | cons => cases h
  | cons byte rest ih =>
    intro bytes' h
    cases bytes' with
    | nil => cases h
    | cons byte' rest' =>
      obtain ⟨hByte, hRest⟩ := append_inj h rfl
      rw [hexDigits_injective hByte, ih hRest]

theorem exists_flatMap_hexDigits {digits : Text} (n : Nat) (hLength : digits.length = 2 * n)
    (hDigits : ∀ digit ∈ digits, isManagedDigit digit) :
    ∃ bytes : List UInt8, bytes.length = n ∧ bytes.flatMap hexDigits = digits := by
  induction n generalizing digits with
  | zero => exact ⟨[], rfl, (length_eq_zero_iff.mp hLength).symm⟩
  | succ n ih =>
    obtain ⟨a, tail, rfl⟩ := exists_of_length_succ _ hLength
    obtain ⟨b, rest, rfl⟩ := exists_of_length_succ _ (Nat.succ.inj hLength)
    obtain ⟨hA, hB, hRest⟩ := by simpa only [forall_mem_cons] using hDigits
    obtain ⟨byte, hByte⟩ := exists_hexDigits hA hB
    obtain ⟨bytes, hBytes, rfl⟩ := ih (Nat.succ.inj (Nat.succ.inj hLength)) hRest
    exact ⟨byte :: bytes, by rw [length_cons, hBytes], by rw [flatMap_cons, hByte]; rfl⟩

theorem managedDigits (entropy : Entropy) :
    ∀ byte ∈ entropy.bytes.flatMap hexDigits, isManagedDigit byte := by
  intro byte hByte
  obtain ⟨source, -, hDigit⟩ := mem_flatMap.mp hByte
  exact all_eq_true.mp (hexDigits_managed source) byte hDigit

theorem length_managedLabel (entropy : Entropy) : (managedLabel entropy).length =
      managedHostnamePrefix.length + managedHostnameEntropyBytes * 2 := by
  simp [managedLabel, length_flatMap, hexDigits, entropy.length_eq]

variable {entropy : Entropy} {hostname : PublicHostname}

theorem managedLabel_injective : Function.Injective managedLabel :=
  fun _ _ h => FixedBytes.ext (flatMap_hexDigits_injective (append_cancel_left h))

/-- What is left of a label that `managed_hostname_matches` accepts was encoded. -/
theorem exists_managedLabel {label : Text}
    (hLength : label.length = managedHostnamePrefix.length + managedHostnameEntropyBytes * 2)
    (hFirst : managedHostnamePrefix <+: label)
    (hDigits : ∀ digit ∈ label.drop managedHostnamePrefix.length, isManagedDigit digit) :
    ∃ entropy, managedLabel entropy = label := by
  obtain ⟨digits, rfl⟩ := hFirst
  rw [length_append, Nat.add_left_cancel_iff, Nat.mul_comm] at hLength
  rw [drop_left] at hDigits
  obtain ⟨bytes, hBytes, rfl⟩ := exists_flatMap_hexDigits _ hLength hDigits
  exact ⟨⟨bytes, hBytes⟩, rfl⟩

theorem managedLabel_byte {byte : UInt8} (h : byte ∈ managedLabel entropy) :
    (isAsciiAlphanumeric byte ∨ byte = 45) ∧ asciiLower byte = byte := by
  have hAll : ∀ byte, byte ∈ managedHostnamePrefix ∨ isManagedDigit byte →
      (isAsciiAlphanumeric byte ∨ byte = 45) ∧ asciiLower byte = byte := by decide +kernel
  exact hAll byte ((mem_append.mp h).imp_right (managedDigits entropy byte))

theorem isLabel_managedLabel (entropy : Entropy) : IsLabel (managedLabel entropy) := by
  have hLength := length_managedLabel entropy
  refine ⟨cons_ne_nil _ _, hLength.trans_le (by decide), ⟨?_, ?_⟩, ?_⟩
  · exact fun hHead => absurd (Option.some.inj hHead) (by decide)
  · -- the last byte is a digit
    intro hLast
    rw [managedLabel, length_append, Nat.add_left_cancel_iff] at hLength
    rw [managedLabel, getLast?_append, getLast?_eq_some_getLast
      (ne_nil_of_length_pos (by rw [hLength]; decide))] at hLast
    cases managedDigits entropy 45 (Option.some.inj hLast ▸ getLast_mem _)
  · exact fun byte hByte => (managedLabel_byte hByte).1

/-- The label and the base domain are in normal form, so the hostname is just the two of
them with a dot between. -/
theorem normal_managed (entropy : Entropy) (baseDomain : PublicHostname) :
    toAsciiLowercase (stripDot (managedLabel entropy ++ 46 :: baseDomain.text)) =
      managedLabel entropy ++ 46 :: baseDomain.text := by
  have hDot : (managedLabel entropy ++ 46 :: baseDomain.text).getLast? ≠ some 46 := by
    rw [getLast?_append, getLast?_cons,
      getLast?_eq_some_getLast baseDomain.isDnsHostname.nonempty]
    have hLast := baseDomain.isDnsHostname.getLast?_ne
    rw [getLast?_eq_some_getLast baseDomain.isDnsHostname.nonempty] at hLast
    simpa using hLast
  have hLabel : (managedLabel entropy).map asciiLower = managedLabel entropy :=
    (map_congr_left fun byte hByte => (managedLabel_byte hByte).2).trans (map_id _)
  rw [stripDot, if_neg hDot, toAsciiLowercase, map_append, map_cons, hLabel]
  congr 2
  exact baseDomain.toAsciiLowercase_text

theorem fromEntropy_eq_ok {baseDomain : PublicHostname} :
    managedHostnameFromEntropy baseDomain entropy = .ok hostname ↔
      hostname.text = managedLabel entropy ++ 46 :: baseDomain.text := by
  constructor
  · exact fun h => (text_of_new h).trans (normal_managed entropy baseDomain)
  · intro h
    rw [managedHostnameFromEntropy, ← h, new_text]

/-- A generated hostname is one that `validate_managed_hostnames` accepts, and there are no
others. -/
theorem matches_iff {baseDomain : ManagedHostnameBaseDomain} :
    managedHostnameMatches hostname baseDomain ↔
      ∃ entropy, managedHostnameFromEntropy baseDomain.hostname entropy = .ok hostname := by
  unfold managedHostnameMatches
  constructor
  · intro h
    split at h
    · cases h
    · rename_i label hStrip
      obtain ⟨_, hDomain, hDot⟩ := Option.bind_eq_some_iff.mp hStrip
      simp only [Bool.and_eq_true, decide_eq_true_eq, all_eq_true] at h
      have hFirst := isPrefixOf_iff_prefix.mp h.1.2
      obtain ⟨entropy, rfl⟩ := exists_managedLabel h.1.1 hFirst h.2
      refine ⟨entropy, fromEntropy_eq_ok.mpr ?_⟩
      rw [stripSuffix_eq_some.mp hDomain, stripSuffix_eq_some.mp hDot, append_assoc]
      rfl
  · rintro ⟨entropy, h⟩
    have hStrip : (stripSuffix baseDomain.hostname.text hostname.text).bind (stripSuffix [46]) =
        some (managedLabel entropy) := by
      refine Option.bind_eq_some_iff.mpr ⟨managedLabel entropy ++ [46],
        stripSuffix_eq_some.mpr ?_, stripSuffix_eq_some.mpr rfl⟩
      rw [fromEntropy_eq_ok.mp h, append_assoc, singleton_append]
    have hDrop : (managedLabel entropy).drop managedHostnamePrefix.length =
        entropy.bytes.flatMap hexDigits := drop_left
    simp only [hStrip, hDrop, length_managedLabel, decide_true, Bool.true_and, Bool.and_eq_true,
      isPrefixOf_iff_prefix, all_eq_true]
    exact ⟨prefix_append _ _, managedDigits entropy⟩

/-- All labels are equally long, so that the one the base domain was tried with speaks for
them all. -/
theorem exists_fromEntropy (baseDomain : ManagedHostnameBaseDomain) (entropy : Entropy) :
    ∃ hostname, managedHostnameFromEntropy baseDomain.hostname entropy = .ok hostname := by
  obtain ⟨⟨labels, hNe, hLabels, hText⟩, -, -⟩ :=
    isDnsHostname_iff.mp baseDomain.hostname.isDnsHostname
  have hShort : (managedLabel entropy ++ 46 :: baseDomain.hostname.text).length ≤
      maxPublicHostnameBytes := by
    have hFits := baseDomain.fits
    cases hProbe : managedHostnameFromEntropy baseDomain.hostname zeroEntropy with
    | error =>
      rw [hProbe] at hFits
      cases hFits
    | ok probe =>
      have hProbeShort := probe.isDnsHostname.short
      rw [fromEntropy_eq_ok.mp hProbe, length_append, length_managedLabel] at hProbeShort
      rwa [length_append, length_managedLabel]
  -- no address begins with the label's first letter
  have hHost : IsHostname (managedLabel entropy ++ 46 :: baseDomain.hostname.text) := by
    refine ⟨⟨managedLabel entropy :: labels, cons_ne_nil _ _,
      forall_mem_cons.mpr ⟨isLabel_managedLabel entropy, hLabels⟩, ?_⟩, hShort, rfl⟩
    obtain ⟨first, rest, rfl⟩ := exists_cons_of_ne_nil hNe
    rw [hText]
    simp
  have hCanonical := normalizeDnsHostname_eq_ok.mpr
    ⟨(normal_managed entropy baseDomain.hostname).symm, isDnsHostname_iff.mpr hHost⟩
  exact ⟨⟨_, hCanonical⟩, new_eq_ok.mpr hCanonical⟩

/-- The loop that picks a hostname fails only when the entropy does. -/
theorem error_of_selectHostname {db : Db} {baseDomain : ManagedHostnameBaseDomain}
    {fillEntropy : FillEntropy} {attempt left : Nat} {error : HttpsRouteRepositoryError}
    (h : selectHostname db baseDomain fillEntropy attempt left = .error error) :
    ∃ call, fillEntropy call = .error error := by
  induction left generalizing attempt with
  | zero => cases h
  | succ left ih =>
    rcases bind_eq_error.mp h with hFill | ⟨entropy, -, hRest⟩
    · exact ⟨attempt, hFill⟩
    · -- the candidate is a hostname, so that it is taken or the loop goes on
      obtain ⟨candidate, hOk⟩ := exists_fromEntropy baseDomain entropy
      rw [hOk] at hRest
      dsimp only [orCorrupt, bind, Except.bind] at hRest
      split_ifs at hRest
      exact ih hRest

/-- **Managed hostnames.** Under an accepted base domain every entropy has a hostname and no
two have the same; the hostnames that match are these; and so the loop that picks one fails
only when the entropy does. -/
theorem fromEntropy_exact (baseDomain : ManagedHostnameBaseDomain) :
    (∀ entropy, (managedHostnameFromEntropy baseDomain.hostname entropy).isOk) ∧
      Function.Injective (managedHostnameFromEntropy baseDomain.hostname) ∧
      (∀ hostname, managedHostnameMatches hostname baseDomain ↔
        ∃ entropy, managedHostnameFromEntropy baseDomain.hostname entropy = .ok hostname) ∧
      ∀ db fillEntropy attempt left error,
        selectHostname db baseDomain fillEntropy attempt left = .error error →
          ∃ call, fillEntropy call = .error error := by
  refine ⟨fun entropy => ?_, fun entropy entropy' h => ?_, fun _ => matches_iff,
    fun _ _ _ _ _ => error_of_selectHostname⟩
  · obtain ⟨_, hOk⟩ := exists_fromEntropy baseDomain entropy
    rw [hOk]
    rfl
  · -- equal hostnames have equal labels
    obtain ⟨_, hOk⟩ := exists_fromEntropy baseDomain entropy
    have hText := (fromEntropy_eq_ok.mp hOk).symm.trans (fromEntropy_eq_ok.mp (h.symm.trans hOk))
    exact managedLabel_injective (append_cancel_right hText)

theorem ManagedHostnameBaseDomain.new_text (baseDomain : ManagedHostnameBaseDomain) :
    ManagedHostnameBaseDomain.new baseDomain.hostname.text = .ok baseDomain := by
  simp [ManagedHostnameBaseDomain.new, baseDomain.fits]

/-! ## Directories -/

structure ManagedHostname where
  tunnelId : TunnelId
  hostname : PublicHostname
  baseDomain : ManagedHostnameBaseDomain
deriving DecidableEq

namespace ManagedHostname

/-- The route a managed hostname comes with. -/
def route (managed : ManagedHostname) : HttpsRouteRecord :=
  ⟨managed.hostname, managed.tunnelId, .enabled⟩

def row (managed : ManagedHostname) : ManagedRow :=
  ⟨managed.tunnelId.text, managed.hostname.text, managed.baseDomain.hostname.text⟩

end ManagedHostname

structure Directory where
  version : HttpsRouteCatalogVersion
  routes : List HttpsRouteRecord
  managed : List ManagedHostname
  bounded : routes.length ≤ maxHttpsRouteRecords
  distinct : routes.Pairwise (·.hostname ≠ ·.hostname)
  apart : managed.Pairwise fun a b => a.tunnelId ≠ b.tunnelId ∧ a.hostname ≠ b.hostname
  routed : ∀ m ∈ managed, m.route ∈ routes
  named : ∀ m ∈ managed, managedHostnameMatches m.hostname m.baseDomain

namespace Directory

variable {routes : List HttpsRouteRecord}

theorem hasDuplicate_of_pairwise (h : routes.Pairwise (·.hostname ≠ ·.hostname)) :
    hasDuplicate routes = false := by
  induction routes with
  | nil => rfl
  | cons _ rest ih =>
    cases rest with
    | nil => rfl
    | cons =>
      rw [hasDuplicate, ih h.of_cons, Bool.or_false, decide_eq_false_iff_not]
      exact rel_of_pairwise_cons h mem_cons_self

variable (dir : Directory)

theorem distinct_sortRoutes : (sortRoutes dir.routes).Pairwise (·.hostname ≠ ·.hostname) :=
  (perm_insertionSort _ dir.routes).symm.pairwise dir.distinct fun h => h.symm

/-- The catalog of a directory. -/
def catalog : HttpsRouteCatalog where
  version := dir.version
  routes := sortRoutes dir.routes
  bounded := by simpa [sortRoutes] using dir.bounded
  ascending :=
    ascending_of_sorted (sortRoutes_sorted dir.routes)
      (hasDuplicate_of_pairwise dir.distinct_sortRoutes)

theorem catalog_version : dir.catalog.version = dir.version := rfl

@[simp]
theorem mem_sortRoutes {route : HttpsRouteRecord} : route ∈ sortRoutes routes ↔ route ∈ routes :=
  mem_insertionSort _

variable {dir} {a b : HttpsRouteRecord} {m m' : ManagedHostname}

theorem eq_of_hostname (ha : a ∈ dir.routes) (hb : b ∈ dir.routes)
    (h : a.hostname = b.hostname) : a = b := by
  by_contra hNe
  have : Std.Symm fun a b : HttpsRouteRecord => a.hostname ≠ b.hostname := ⟨fun _ _ h => h.symm⟩
  exact dir.distinct.forall ha hb hNe h

theorem eq_of_managed (hm : m ∈ dir.managed) (hm' : m' ∈ dir.managed)
    (h : m.tunnelId = m'.tunnelId ∨ m.hostname = m'.hostname) : m = m' := by
  by_contra hNe
  have : Std.Symm fun a b : ManagedHostname => a.tunnelId ≠ b.tunnelId ∧ a.hostname ≠ b.hostname :=
    ⟨fun _ _ h => ⟨h.1.symm, h.2.symm⟩⟩
  obtain ⟨hTunnel, hHostname⟩ := dir.apart.forall hm hm' hNe
  exact h.elim hTunnel hHostname

/-- Managed hostnames are routes, so there are no more of them. -/
theorem length_managed_le : dir.managed.length ≤ maxHttpsRouteRecords := by
  have hNodup : (dir.managed.map ManagedHostname.route).Nodup :=
    pairwise_map.mpr (dir.apart.imp fun h hEq => h.2 (congrArg HttpsRouteRecord.hostname hEq))
  have hSubset : dir.managed.map ManagedHostname.route ⊆ dir.routes := by
    intro _ hRoute
    obtain ⟨m, hm, rfl⟩ := mem_map.mp hRoute
    exact dir.routed m hm
  have hLength := (hNodup.subperm hSubset).length_le
  rw [length_map] at hLength
  exact hLength.trans dir.bounded

end Directory

/-! ## Loading -/

/-- The rows of a database are those of a directory. -/
structure Db.Shows (db : Db) (dir : Directory) : Prop where
  version : db.version = be 8 dir.version.value
  routes : db.routes.rows = dir.routes.map HttpsRouteRecord.row
  managed : db.managed.rows = dir.managed.map ManagedHostname.row

theorem readRoute_row (record : HttpsRouteRecord) : readRoute record.row = .ok record := by
  have hStatus : HttpsRouteStatus.fromRaw record.status.asRaw = .ok record.status := by
    cases record.status <;> rfl
  simp only [readRoute, HttpsRouteRecord.row, new_text, DurableId.new_text,
    orCorrupt, hStatus]
  rfl

theorem readRoutes_rows {routes : List HttpsRouteRecord} {records : List HttpsRouteRecord}
    (h : routes.length + records.length ≤ maxHttpsRouteRecords) :
    readRoutes routes (records.map HttpsRouteRecord.row) = .ok (routes ++ records) := by
  induction records generalizing routes with
  | nil => simp [readRoutes]
  | cons record rest ih =>
    rw [length_cons] at h
    have hRoom : routes.length ≠ maxHttpsRouteRecords := by omega
    have hRest : (routes ++ [record]).length + rest.length ≤ maxHttpsRouteRecords := by
      rw [length_append, length_singleton]
      omega
    rw [map_cons, readRoutes, if_neg hRoom, readRoute_row, ok_bind, ih hRest,
      append_assoc, singleton_append]

theorem checkManaged_row (managed : ManagedHostname)
    (h : managedHostnameMatches managed.hostname managed.baseDomain) :
    checkManaged managed.row (some managed.route.row) = .ok () := by
  simp only [checkManaged, ManagedHostname.row, ManagedHostname.route, HttpsRouteRecord.row,
    new_text, DurableId.new_text, ManagedHostnameBaseDomain.new_text, orCorrupt,
    ok_bind, h, Option.map_some]
  simp

theorem checkAllManaged_rows {managed : List ManagedHostname} {count : Nat}
    (hCount : count + managed.length ≤ maxHttpsRouteRecords)
    (hNamed : ∀ m ∈ managed, managedHostnameMatches m.hostname m.baseDomain) :
    checkAllManaged count (managed.map fun m => (m.row, some m.route.row)) = .ok () := by
  induction managed generalizing count with
  | nil => rfl
  | cons m _ ih =>
    rw [length_cons] at hCount
    have hRoom : count ≠ maxHttpsRouteRecords := by omega
    rw [map_cons, checkAllManaged, if_neg hRoom,
      checkManaged_row m (hNamed m mem_cons_self), ok_bind]
    exact ih (by omega) fun m' hm' => hNamed m' (mem_cons_of_mem m hm')

namespace Db.Shows

variable {db : Db} {dir : Directory} (h : db.Shows dir)
include h

theorem loadVersion_eq : db.loadVersion = .ok dir.version := by
  have hRead : readBE (be 8 dir.version.value) = dir.version.value :=
    readBE_be (dir.version.lt.trans_eq (by norm_num))
  have hNew : HttpsRouteCatalogVersion.new dir.version.value = some dir.version := by
    rw [HttpsRouteCatalogVersion.new, dif_pos dir.version.pos, dif_pos dir.version.lt]
  simp [loadVersion, h.version, decodeVersion, hRead, hNew]

theorem selectRoutes_eq : db.selectRoutes = (sortRoutes dir.routes).map HttpsRouteRecord.row := by
  have hSort := map_insertionSort
    (fun a b : HttpsRouteRecord => (compare a.hostname b.hostname).isLE)
    (fun a b : RouteRow => (compare a.hostname b.hostname).isLE)
    HttpsRouteRecord.row dir.routes fun _ _ _ _ => Iff.rfl
  rw [selectRoutes, h.routes, sortRoutes, hSort]
  refine take_of_length_le ?_
  rw [length_insertionSort, length_map]
  exact dir.bounded.trans (Nat.le_succ _)

/-- The rows of any one state give its catalog, whatever version was read before. -/
theorem catalogOf_selectRoutes (version : HttpsRouteCatalogVersion) :
    catalogOf version db.selectRoutes =
      .ok ⟨version, sortRoutes dir.routes, dir.catalog.bounded, dir.catalog.ascending⟩ := by
  have hLength : (sortRoutes dir.routes).length ≤ maxHttpsRouteRecords := dir.catalog.bounded
  have hSorted : sortRoutes (sortRoutes dir.routes) = sortRoutes dir.routes :=
    (sortRoutes_sorted dir.routes).insertionSort_eq
  have hDistinct : hasDuplicate (sortRoutes dir.routes) = false :=
    Directory.hasDuplicate_of_pairwise dir.distinct_sortRoutes
  rw [h.selectRoutes_eq, catalogOf, readRoutes_rows (by simpa using hLength), ok_bind,
    nil_append]
  simp [HttpsRouteCatalog.new, Nat.not_lt.mpr hLength, hSorted, hDistinct]

theorem loadCatalog_eq : db.loadCatalog = .ok dir.catalog := by
  rw [loadCatalog, h.loadVersion_eq, ok_bind, h.catalogOf_selectRoutes]
  rfl

/-- The route that a managed hostname is joined with is its own. -/
theorem find_route {m : ManagedHostname} (hm : m ∈ dir.managed) :
    db.routes.rows.find? (·.hostname = m.hostname.text) = some m.route.row := by
  rw [h.routes]
  refine Table.find?_unique (mem_map_of_mem (dir.routed m hm)) (decide_eq_true rfl) ?_
  intro _ hRow hText
  obtain ⟨_, hRoute, rfl⟩ := mem_map.mp hRow
  rw [Directory.eq_of_hostname hRoute (dir.routed m hm)
    (PublicHostname.ext (of_decide_eq_true hText))]

theorem validateManagedHostnames_eq : db.validateManagedHostnames = .ok () := by
  let sorted := dir.managed.insertionSort fun a b => (compare a.tunnelId b.tunnelId).isLE
  have hMem : ∀ m ∈ sorted, m ∈ dir.managed := fun m hm => (mem_insertionSort _).mp hm
  have hLength : sorted.length ≤ maxHttpsRouteRecords := by
    simpa [sorted] using dir.length_managed_le
  have hSort := map_insertionSort
    (fun a b : ManagedHostname => (compare a.tunnelId b.tunnelId).isLE)
    (fun a b : ManagedRow => (compare a.tunnelId b.tunnelId).isLE)
    ManagedHostname.row dir.managed fun _ _ _ _ => Iff.rfl
  have hRows : db.selectManaged = sorted.map fun m => (m.row, some m.route.row) := by
    rw [selectManaged, h.managed, ← hSort, take_of_length_le, map_map]
    · refine map_congr_left fun m hm => ?_
      exact Prod.ext rfl (h.find_route (hMem m hm))
    · rw [length_map]
      exact hLength.trans (Nat.le_succ _)
  rw [validateManagedHostnames, hRows]
  exact checkAllManaged_rows (by simpa using hLength) fun m hm => dir.named m (hMem m hm)

/-- **A database that shows a directory loads as its catalog.** -/
theorem load_eq : db.load = .ok dir.catalog := by
  rw [load, h.loadCatalog_eq, ok_bind, h.validateManagedHostnames_eq]
  rfl

end Db.Shows

end TunnelProxy.Routes
