import TunnelProxy.Control.SnapshotCache

/-!
# The file cache never rolls back

Every file that is not temporary is a whole, synced generation, and two of one version hold
the same snapshot. A store begins only if its snapshot is the newest of all that the
directory holds, or may hold after a crash; and it removes older files only when its own is
durable.

* `Sound.rename`, `Sound.clean`, `Sound.crash` — the three changes that matter
* `cache_never_rolls_back` — no kill and no crash takes back a store that has returned
-/

namespace TunnelProxy.Control

open Common Versioned CrashDisk Transition List Option

abbrev VersionUpTo := UpTo VersionedAuthorizationSnapshot.version

/-! ## Generation files -/

abbrev CacheEntry := Text × File (List UInt8)

/-- The entry is the generation of a store of the snapshot at the given time. -/
structure Stored (sha256 : Hash) (entry : CacheEntry) (snapshot : VersionedAuthorizationSnapshot)
    (time : Int) : Prop where
  name : ∃ millis nonce, unixMillis time = .ok millis ∧ nonce < 2 ^ 64 ∧
    entry.1 = generationStem snapshot.version.value millis nonce ++ tpcSuffix
  content : encodeCacheRecord sha256 snapshot time = .ok entry.2.content
  synced : entry.2.synced = true

section

variable {sha256 : Hash} {entry entry' : CacheEntry} {x y : VersionedAuthorizationSnapshot}
  {time time' now : Int}

section

variable (h : Stored sha256 entry x time)
include h

theorem Stored.notTmp : isTmp entry.1 = false := by
  obtain ⟨_, _, -, -, hName⟩ := h.name
  rw [hName]
  exact not_tmp_of_tpc _

theorem Stored.generationVersion_eq :
    generationVersion entry.1 = .ok (some x.version.value) := by
  obtain ⟨_, _, hMillis, hNonce, hName⟩ := h.name
  rw [hName]
  exact generationVersion_tpc x.version.pos x.version.lt (unixMillis_eq_ok hMillis).1 hNonce

theorem Stored.read (hNow : time ≤ now) :
    ∃ cached, readGeneration sha256 entry.2.content now = .ok cached := by
  obtain ⟨_, _, -, -, -, hLength, -⟩ := encodeCacheRecord_eq_ok h.content
  obtain ⟨cached, hDecoded, -⟩ := decodeCacheRecord_encode h.content hNow
  exact ⟨cached, by rw [readGeneration, if_neg (Nat.not_lt.mpr hLength), hDecoded]⟩

theorem Stored.generation :
    Generation sha256 (entry.1, entry.2.content) x where
  notTmp := h.notTmp
  version := h.generationVersion_eq
  content := by
    intro _ _ hRead
    rw [readGeneration] at hRead
    split at hRead
    · cases hRead
    · exact decodeCacheRecord_snapshot h.content hRead
  readable := ⟨time, h.read le_rfl⟩

/-- A generation holds one snapshot. -/
theorem Stored.unique (h' : Stored sha256 entry y time') : x = y :=
  h.generation.unique h'.generation

theorem Stored.version_eq (h' : Stored sha256 entry' y time')
    (hName : entry.1 = entry'.1) : x.version = y.version := by
  have hVersion := h.generationVersion_eq
  rw [hName, h'.generationVersion_eq] at hVersion
  exact (SnapshotVersion.ext (Option.some.inj (Except.ok.inj hVersion))).symm

end

end

/-! ## The directory -/

/-- The directory has a generation of the snapshot. -/
def Holds (sha256 : Hash) (dir : Directory Text (List UInt8))
    (x : VersionedAuthorizationSnapshot) : Prop :=
  ∃ entry ∈ dir, ∃ time, Stored sha256 entry x time

/-- The snapshot may be in the directory after a crash. -/
def MayHold (sha256 : Hash) (disk : Disk Text (List UInt8))
    (x : VersionedAuthorizationSnapshot) : Prop :=
  ∃ state ∈ disk.states, Holds sha256 state x

/-- The snapshot is in the directory after every crash, under the name. -/
def MustHold (sha256 : Hash) (disk : Disk Text (List UInt8)) (name : Text)
    (x : VersionedAuthorizationSnapshot) : Prop :=
  ∀ state ∈ disk.states, ∃ entry ∈ state, entry.1 = name ∧ ∃ time, Stored sha256 entry x time

/-- The state of the directory, `acked` being the stores that have returned. -/
structure Sound (sha256 : Hash) (clock : Int) (given acked : List VersionedAuthorizationSnapshot)
    (disk : Disk Text (List UInt8)) : Prop where
  entries : ∀ state ∈ disk.states, ∀ entry ∈ state, isTmp entry.1 ∨
    ∃ x time, Stored sha256 entry x time ∧ time ≤ clock ∧ x ∈ given
  agree : ∀ x y, MayHold sha256 disk x → MayHold sha256 disk y → x.version = y.version → x = y
  /-- What a crash may bring back is not newer than what the directory shows. -/
  dominated : ∀ x, MayHold sha256 disk x → ∃ y, Holds sha256 disk.live y ∧ VersionUpTo x y
  acked : ∀ x ∈ acked, ∃ name y, MustHold sha256 disk name y ∧ VersionUpTo x y

variable {time : Int} {maxStaleAge : Nat}

section

variable {sha256 : Hash} {clock clock' : Int}
  {given given' acked : List VersionedAuthorizationSnapshot} {disk : Disk Text (List UInt8)}
  {live dir : Directory Text (List UInt8)} {x y snapshot : VersionedAuthorizationSnapshot}
  {name old : Text} {file : File (List UInt8)}

theorem MustHold.mayHold (h : MustHold sha256 disk name x) : MayHold sha256 disk x := by
  obtain ⟨entry, hEntry, -, hStored⟩ := h disk.live Disk.live_mem_states
  exact ⟨disk.live, Disk.live_mem_states, entry, hEntry, hStored⟩

theorem mayHold_change : MayHold sha256 (disk.change live) x ↔
    Holds sha256 live x ∨ MayHold sha256 disk x := by
  simp [MayHold]

theorem Sound.mono (h : Sound sha256 clock given acked disk) (hClock : clock ≤ clock')
    (hGiven : given ⊆ given') : Sound sha256 clock' given' acked disk :=
  { h with
    entries := by
      intro state hState entry hEntry
      refine (h.entries state hState entry hEntry).imp_right ?_
      rintro ⟨x, time, hStored, hTime, hMem⟩
      exact ⟨x, time, hStored, hTime.trans hClock, hGiven hMem⟩ }

/-- Two directories with the same files that are not temporary. -/
def SameGenerations (live dir : Directory Text (List UInt8)) : Prop :=
  ∀ entry, isTmp entry.1 = false → (entry ∈ live ↔ entry ∈ dir)

theorem SameGenerations.holds (h : SameGenerations live dir) :
    Holds sha256 live x ↔ Holds sha256 dir x := by
  constructor
  · rintro ⟨entry, hEntry, time, hStored⟩
    exact ⟨entry, (h entry hStored.notTmp).mp hEntry, time, hStored⟩
  · rintro ⟨entry, hEntry, time, hStored⟩
    exact ⟨entry, (h entry hStored.notTmp).mpr hEntry, time, hStored⟩

theorem SameGenerations.mayHold (h : SameGenerations live disk.live) :
    MayHold sha256 (disk.change live) x ↔ MayHold sha256 disk x := by
  rw [mayHold_change, h.holds, or_iff_right_of_imp]
  exact fun hLive => ⟨disk.live, Disk.live_mem_states, hLive⟩

section

variable (h : Sound sha256 clock given acked disk)
include h

/-- Temporary files come and go. -/
theorem Sound.changeTmp (hSame : SameGenerations live disk.live) :
    Sound sha256 clock given acked (disk.change live) where
  entries := by
    rw [Disk.states_change]
    refine forall_mem_cons.mpr ⟨fun entry hEntry => ?_, h.entries⟩
    cases hTmp : isTmp entry.1 with
    | true => exact .inl rfl
    | false =>
      have hOld := h.entries disk.live Disk.live_mem_states entry ((hSame entry hTmp).mp hEntry)
      rwa [hTmp] at hOld
  agree := fun x y hx hy => h.agree x y (hSame.mayHold.mp hx) (hSame.mayHold.mp hy)
  dominated := by
    intro x hx
    obtain ⟨y, hy, hUpTo⟩ := h.dominated x (hSame.mayHold.mp hx)
    exact ⟨y, hSame.holds.mpr hy, hUpTo⟩
  acked := by
    intro x hx
    obtain ⟨name, y, hy, hUpTo⟩ := h.acked x hx
    obtain ⟨entry, hEntry, hName, time, hStored⟩ := hy disk.live Disk.live_mem_states
    exact ⟨name, y, forall_mem_cons.mpr ⟨⟨entry, (hSame entry hStored.notTmp).mpr hEntry, hName,
      time, hStored⟩, hy⟩, hUpTo⟩

omit h in
theorem mayHold_rename {tmp : Text} (hStored : Stored sha256 (name, file) snapshot time)
    (h : MayHold sha256 (disk.change ((disk.live.erase tmp).put name file)) x) :
    x = snapshot ∨ MayHold sha256 disk x := by
  rcases mayHold_change.mp h with ⟨entry, hEntry, time', hStored'⟩ | hOld
  · rcases Directory.mem_put.mp hEntry with rfl | ⟨hOld, -⟩
    · exact .inl (hStored'.unique hStored)
    · exact .inr ⟨disk.live, Disk.live_mem_states, entry, (Directory.mem_erase.mp hOld).1,
        time', hStored'⟩
  · exact .inr hOld

/-- A new generation, of a snapshot that nothing in the directory exceeds. A file that had
its name held the same snapshot. -/
theorem Sound.rename {tmp : Text}
    (hStored : Stored sha256 (name, file) snapshot time) (hTime : time ≤ clock)
    (hGiven : snapshot ∈ given) (hAbove : ∀ x, MayHold sha256 disk x → VersionUpTo x snapshot)
    (hTmp : isTmp tmp) :
    Sound sha256 clock given acked (disk.change ((disk.live.erase tmp).put name file)) := by
  set live := (disk.live.erase tmp).put name file with hLive
  have hNew : Holds sha256 live snapshot :=
    ⟨(name, file), Directory.mem_put.mpr (.inl rfl), time, hStored⟩
  have hCases : ∀ x, MayHold sha256 (disk.change live) x → x = snapshot ∨ MayHold sha256 disk x :=
    fun x hx => mayHold_rename hStored hx
  have hUpTo : ∀ x, MayHold sha256 (disk.change live) x → VersionUpTo x snapshot := by
    intro x hx
    rcases hCases x hx with rfl | hOld
    · exact UpTo.refl x
    · exact hAbove x hOld
  constructor
  · rw [Disk.states_change]
    refine forall_mem_cons.mpr ⟨fun entry hEntry => ?_, h.entries⟩
    rcases Directory.mem_put.mp hEntry with rfl | ⟨hOld, -⟩
    · exact .inr ⟨snapshot, time, hStored, hTime, hGiven⟩
    · exact h.entries disk.live Disk.live_mem_states entry (Directory.mem_erase.mp hOld).1
  · intro x y hx hy hVersion
    rcases hCases x hx with rfl | hxOld
    · exact ((hUpTo y hy).eq_of_version_le hVersion.le).symm
    · rcases hCases y hy with rfl | hyOld
      · exact (hUpTo x hx).eq_of_version_le hVersion.ge
      · exact h.agree x y hxOld hyOld hVersion
  · exact fun x hx => ⟨snapshot, hNew, hUpTo x hx⟩
  · intro x hx
    obtain ⟨name', y, hy, hxy⟩ := h.acked x hx
    refine ⟨name', y, forall_mem_cons.mpr ⟨?_, hy⟩, hxy⟩
    obtain ⟨entry, hEntry, rfl, time', hStored'⟩ := hy disk.live Disk.live_mem_states
    by_cases hName : entry.1 = name
    · have hVersion : y.version = snapshot.version := hStored'.version_eq hStored hName
      obtain rfl : y = snapshot := (hAbove y hy.mayHold).eq_of_version_le hVersion.ge
      exact ⟨(name, file), Directory.mem_put.mpr (.inl rfl), hName.symm, time, hStored⟩
    · have hNotTmp : entry.1 ≠ tmp := by
        intro hEq
        rw [← hEq, hStored'.notTmp] at hTmp
        cases hTmp
      exact ⟨entry, Directory.mem_put.mpr (.inr ⟨Directory.mem_erase.mpr ⟨hEntry, hNotTmp⟩, hName⟩),
        rfl, time', hStored'⟩

omit h in
theorem mayHold_syncDirectory : MayHold sha256 disk.syncDirectory x ↔ Holds sha256 disk.live x := by
  simp [MayHold]

omit h in
theorem MustHold.syncDirectory (h : MustHold sha256 disk name x) :
    MustHold sha256 disk.syncDirectory name x := by
  rw [MustHold, Disk.states_syncDirectory]
  exact forall_mem_singleton.mpr (h disk.live Disk.live_mem_states)

theorem Sound.syncDirectory :
    Sound sha256 clock given acked disk.syncDirectory where
  entries := by
    rw [Disk.states_syncDirectory]
    exact forall_mem_singleton.mpr (h.entries disk.live Disk.live_mem_states)
  agree := fun x y hx hy => h.agree x y
    ⟨disk.live, Disk.live_mem_states, mayHold_syncDirectory.mp hx⟩
    ⟨disk.live, Disk.live_mem_states, mayHold_syncDirectory.mp hy⟩
  dominated := fun x hx => ⟨x, mayHold_syncDirectory.mp hx, UpTo.refl x⟩
  acked := by
    intro x hx
    obtain ⟨name, y, hy, hUpTo⟩ := h.acked x hx
    exact ⟨name, y, hy.syncDirectory, hUpTo⟩

omit h in
theorem MustHold.remove (h : MustHold sha256 disk name x) (hOld : old ≠ name) :
    MustHold sha256 (disk.remove old) name x := by
  refine forall_mem_cons.mpr ⟨?_, h⟩
  obtain ⟨entry, hEntry, rfl, hStored⟩ := h disk.live Disk.live_mem_states
  exact ⟨entry, Directory.mem_erase.mpr ⟨hEntry, hOld.symm⟩, rfl, hStored⟩

omit h in
theorem mayHold_remove (h : MayHold sha256 (disk.remove old) x) : MayHold sha256 disk x := by
  rcases mayHold_change.mp h with ⟨entry, hEntry, hStored⟩ | hOld
  · exact ⟨disk.live, Disk.live_mem_states, entry, (Directory.mem_erase.mp hEntry).1, hStored⟩
  · exact hOld

/-- Removing a file, when a durable one is newer than everything. -/
theorem Sound.clean (hDurable : MustHold sha256 disk name snapshot)
    (hAbove : ∀ x, MayHold sha256 disk x → VersionUpTo x snapshot) (hOld : old ≠ name) :
    Sound sha256 clock given acked (disk.remove old) where
  entries := by
    refine forall_mem_cons.mpr ⟨fun entry hEntry => ?_, h.entries⟩
    exact h.entries disk.live Disk.live_mem_states entry (Directory.mem_erase.mp hEntry).1
  agree := fun x y hx hy => h.agree x y (mayHold_remove hx) (mayHold_remove hy)
  dominated := by
    intro x hx
    obtain ⟨entry, hEntry, -, hStored⟩ := hDurable.remove hOld _ Disk.live_mem_states
    exact ⟨snapshot, ⟨entry, hEntry, hStored⟩, hAbove x (mayHold_remove hx)⟩
  acked := by
    intro x hx
    obtain ⟨_, y, hy, hUpTo⟩ := h.acked x hx
    exact ⟨name, snapshot, hDurable.remove hOld, hUpTo.trans (hAbove y hy.mayHold)⟩

/-- After a crash a generation is one that was there before. -/
theorem Sound.mem_of_survives
    (hSurvives : disk.Survives dir) {entry : CacheEntry} (hEntry : entry ∈ dir)
    (hTmp : isTmp entry.1 = false) : ∃ state ∈ disk.states, entry ∈ state := by
  rcases hSurvives.mem_cases hEntry with hOld | ⟨state, hState, old, hOld, hName, hUnsynced⟩
  · exact hOld
  · rcases h.entries state hState old hOld with hOldTmp | ⟨_, _, hStored, -⟩
    · rw [hName, hTmp] at hOldTmp
      cases hOldTmp
    · rw [hStored.synced] at hUnsynced
      cases hUnsynced

theorem Sound.crash (hSurvives : disk.Survives dir) :
    Sound sha256 clock given acked ⟨dir, []⟩ := by
  have hMay : ∀ x, MayHold sha256 ⟨dir, []⟩ x → MayHold sha256 disk x := by
    rintro _ ⟨_, hState, entry, hEntry, time, hStored⟩
    cases mem_singleton.mp hState
    obtain ⟨old, hOld, hMem⟩ := h.mem_of_survives hSurvives hEntry hStored.notTmp
    exact ⟨old, hOld, entry, hMem, time, hStored⟩
  constructor
  · refine forall_mem_singleton.mpr fun entry hEntry => ?_
    cases hTmp : isTmp entry.1 with
    | true => exact .inl rfl
    | false =>
      obtain ⟨state, hState, hMem⟩ := h.mem_of_survives hSurvives hEntry hTmp
      have hOld := h.entries state hState entry hMem
      rwa [hTmp] at hOld
  · exact fun x y hx hy => h.agree x y (hMay x hx) (hMay y hy)
  · rintro x ⟨_, hState, hHolds⟩
    cases mem_singleton.mp hState
    exact ⟨x, hHolds, UpTo.refl x⟩
  · intro x hx
    obtain ⟨name, y, hy, hUpTo⟩ := h.acked x hx
    refine ⟨name, y, forall_mem_singleton.mpr ?_, hUpTo⟩
    have hPinned : disk.Pinned name := fun state hState => by
      obtain ⟨entry, hEntry, hName, -⟩ := hy state hState
      exact ⟨entry, hEntry, hName⟩
    obtain ⟨entry, hEntry, rfl⟩ := hSurvives.pinned hPinned
    -- the file of that name is a generation of the same version, hence of the same snapshot
    obtain ⟨_, -, hName, _, hStored⟩ := hy disk.live Disk.live_mem_states
    have hTmp : isTmp entry.1 = false := hName ▸ hStored.notTmp
    obtain ⟨state, hState, hMem⟩ := h.mem_of_survives hSurvives hEntry hTmp
    rcases h.entries state hState entry hMem with hIsTmp | ⟨z, time', hStored', -⟩
    · rw [hTmp] at hIsTmp
      cases hIsTmp
    · obtain rfl : z = y := h.agree z y ⟨state, hState, entry, hMem, time', hStored'⟩ hy.mayHold
        (hStored'.version_eq hStored hName.symm)
      exact ⟨entry, hEntry, rfl, time', hStored'⟩

end

/-! ## Loading from it -/

variable {listed : List (Text × List UInt8)} {now : Int}

/-- The directory in the order in which it is read. -/
def Lists (listed : List (Text × List UInt8)) (dir : Directory Text (List UInt8)) : Prop :=
  listed.Perm (dir.map fun entry => (entry.1, entry.2.content))

section

variable (h : Sound sha256 clock given acked disk)
include h

section

variable (hListed : Lists listed disk.live)
include hListed

theorem Sound.wellformed : Wellformed sha256 listed := by
  intro _ hFile
  obtain ⟨entry, hEntry, rfl⟩ := mem_map.mp (hListed.mem_iff.mp hFile)
  refine (h.entries disk.live Disk.live_mem_states entry hEntry).imp_right ?_
  rintro ⟨x, _, hStored, -⟩
  exact ⟨x, hStored.generation⟩

/-- The generations of the directory were stored in it. -/
theorem Sound.holds_iff :
    Holds sha256 disk.live x ↔ ∃ file ∈ listed, Generation sha256 file x := by
  constructor
  · rintro ⟨_, hEntry, _, hStored⟩
    exact ⟨_, hListed.mem_iff.mpr (mem_map_of_mem hEntry), hStored.generation⟩
  · rintro ⟨_, hFile, hGeneration⟩
    obtain ⟨entry, hEntry, rfl⟩ := mem_map.mp (hListed.mem_iff.mp hFile)
    rcases h.entries disk.live Disk.live_mem_states entry hEntry with hTmp | ⟨_, time, hStored, -⟩
    · have hNotTmp := hGeneration.notTmp
      rw [hTmp] at hNotTmp
      cases hNotTmp
    · obtain rfl := hGeneration.unique hStored.generation
      exact ⟨entry, hEntry, time, hStored⟩

theorem Sound.generations_agree : ∀ a ∈ listed, ∀ b ∈ listed, ∀ x y,
      Generation sha256 a x → Generation sha256 b y → x.version = y.version → x = y := by
  intro a ha b hb x y hx hy
  exact h.agree x y ⟨disk.live, Disk.live_mem_states, (h.holds_iff hListed).mpr ⟨a, ha, hx⟩⟩
    ⟨disk.live, Disk.live_mem_states, (h.holds_iff hListed).mpr ⟨b, hb, hy⟩⟩

/-- Whatever the time, only the newest snapshot of the directory is loaded. -/
theorem Sound.load_cases (now : Int) (maxStaleAge : Nat) :
    (loadUnlocked sha256 maxStaleAge listed now false = .error .missing ∧
        ∀ x, ¬Holds sha256 disk.live x) ∨
      (∃ error, error.ofReading ∧ loadUnlocked sha256 maxStaleAge listed now false = .error error) ∨
      ∃ cached, loadUnlocked sha256 maxStaleAge listed now false = .ok cached ∧
        Holds sha256 disk.live cached.snapshot ∧
        ∀ x, Holds sha256 disk.live x → VersionUpTo x cached.snapshot := by
  by_cases hSome : ∃ x, Holds sha256 disk.live x
  · obtain ⟨x, hx⟩ := hSome
    obtain ⟨file, hFile, hGeneration⟩ := (h.holds_iff hListed).mp hx
    refine .inr ((loadUnlocked_cases maxStaleAge (h.wellformed hListed)
      (h.generations_agree hListed) ⟨file, hFile, x, hGeneration⟩).imp_right ?_)
    rintro ⟨cached, hLoad, hCached, hTop⟩
    refine ⟨cached, hLoad, (h.holds_iff hListed).mpr hCached, fun y hy => ?_⟩
    obtain ⟨file, hFile, hGeneration⟩ := (h.holds_iff hListed).mp hy
    exact hTop file hFile y hGeneration
  · rw [not_exists] at hSome
    refine .inl ⟨loadUnlocked_missing maxStaleAge fun file hFile => ?_, hSome⟩
    refine (h.wellformed hListed file hFile).resolve_right ?_
    rintro ⟨x, hGeneration⟩
    exact hSome x ((h.holds_iff hListed).mpr ⟨file, hFile, hGeneration⟩)

/-- Once the times of all stores have come, it is loaded. -/
theorem Sound.exists_load (hNow : clock ≤ now) (maxStaleAge : Nat)
    (hHolds : Holds sha256 disk.live x) :
    ∃ cached, loadUnlocked sha256 maxStaleAge listed now false = .ok cached := by
  obtain ⟨file, hFile, hGeneration⟩ := (h.holds_iff hListed).mp hHolds
  refine loadUnlocked_eq_ok maxStaleAge (h.wellformed hListed) (h.generations_agree hListed)
    ⟨file, hFile, x, hGeneration⟩ ?_
  intro _ hOther hTmp
  obtain ⟨entry, hEntry, rfl⟩ := mem_map.mp (hListed.mem_iff.mp hOther)
  rcases h.entries disk.live Disk.live_mem_states entry hEntry with
    hIsTmp | ⟨y, time, hStored, hTime, -⟩
  · rw [hTmp] at hIsTmp
    cases hIsTmp
  · exact hStored.read (hTime.trans hNow)

end

end

/-- Whatever is loaded is of the version or newer, and something is loaded once the times of
all stores have come. -/
def Covers (sha256 : Hash) (maxStaleAge : Nat) (clock : Int) (dir : Directory Text (List UInt8))
    (version : SnapshotVersion) : Prop :=
  ∀ listed, Lists listed dir → ∀ now,
    (∀ fresh cached, loadUnlocked sha256 maxStaleAge listed now fresh = .ok cached →
      version ≤ cached.snapshot.version) ∧
    (clock ≤ now → ∃ cached, loadUnlocked sha256 maxStaleAge listed now false = .ok cached)

theorem Sound.covers (h : Sound sha256 clock given acked disk) (hHolds : Holds sha256 disk.live y)
    {version : SnapshotVersion} (hVersion : version ≤ y.version) (maxStaleAge : Nat) :
    Covers sha256 maxStaleAge clock disk.live version := by
  intro listed hListed now
  refine ⟨fun fresh cached hLoad => ?_, fun hNow => h.exists_load hListed hNow maxStaleAge hHolds⟩
  have hPlain : loadUnlocked sha256 maxStaleAge listed now false = .ok cached := by
    cases fresh with
    | false => exact hLoad
    | true =>
      rcases loadUnlocked_fresh maxStaleAge with hSame | ⟨_, -, hError⟩
      · exact hSame.symm.trans hLoad
      · cases hError.symm.trans hLoad
  rcases h.load_cases hListed now maxStaleAge with
    ⟨hMissing, -⟩ | ⟨error, -, hError⟩ | ⟨cached', hOk, -, hTop⟩
  · cases hMissing.symm.trans hPlain
  · cases hError.symm.trans hPlain
  · cases hOk.symm.trans hPlain
    exact hVersion.trans (hTop y hHolds).version_le

/-- A store goes on only with a snapshot that nothing in the directory exceeds. -/
theorem Sound.above_of_checkStore (h : Sound sha256 clock given acked disk)
    (hListed : Lists listed disk.live)
    (hCheck : checkStore snapshot (loadUnlocked sha256 maxStaleAge listed now false) = .ok ()) :
    ∀ x, MayHold sha256 disk x → VersionUpTo x snapshot := by
  intro x hx
  obtain ⟨y, hy, hxy⟩ := h.dominated x hx
  rcases h.load_cases hListed now maxStaleAge with
    ⟨-, hNone⟩ | ⟨error, hError, hLoad⟩ | ⟨cached, hLoad, -, hTop⟩
  · exact absurd hy (hNone y)
  · rw [hLoad, checkStore] at hCheck
    · cases hCheck
    · rintro rfl
      cases hError
  · refine hxy.trans ((hTop y hy).trans ?_)
    rw [hLoad, checkStore] at hCheck
    split_ifs at hCheck with hStale hConflict
    rcases (le_of_not_gt hStale).eq_or_lt with hEq | hLt
    · by_cases hSame : snapshot = cached.snapshot
      · exact .inl hSame.symm
      · exact absurd ⟨hEq.symm, hSame⟩ hConflict
    · exact .inr hLt

end

/-! ## Stores -/

/-- What the operations before `phase` have left on the disk. -/
def Done (sha256 : Hash) (disk : Disk Text (List UInt8)) (attempt : Attempt) : StorePhase → Prop
  | .create | .write => True
  | .syncFile => ∃ synced, disk.live.file? attempt.temporary = some ⟨attempt.bytes, synced⟩
  | .rename => disk.live.file? attempt.temporary = some ⟨attempt.bytes, true⟩
  | .syncDirectory => ∃ entry ∈ disk.live, entry.1 = attempt.finalPath ∧
    ∃ time, Stored sha256 entry attempt.snapshot time
  | .clean => MustHold sha256 disk attempt.finalPath attempt.snapshot

/-- How far a store has come. -/
structure Going (sha256 : Hash) (clock : Int) (given : List VersionedAuthorizationSnapshot)
    (disk : Disk Text (List UInt8)) (phase : StorePhase) (attempt : Attempt) : Prop where
  stored : ∃ time, Stored sha256 (attempt.finalPath, ⟨attempt.bytes, true⟩) attempt.snapshot time ∧
    time ≤ clock
  given : attempt.snapshot ∈ given
  above : ∀ x, MayHold sha256 disk x → VersionUpTo x attempt.snapshot
  done : Done sha256 disk attempt phase

structure Kept (sha256 : Hash) (s : FileSnapshotCache) : Prop where
  sound : Sound sha256 s.clock s.given s.acked s.disk
  nonce : s.nextGeneration < 2 ^ 64
  call : ∀ phase attempt, s.call = some (phase, attempt) →
    Going sha256 s.clock s.given s.disk phase attempt

section

variable {sha256 : Hash} {clock : Int} {given : List VersionedAuthorizationSnapshot}
  {disk : Disk Text (List UInt8)} {live : Directory Text (List UInt8)} {attempt : Attempt}
  {s s' : FileSnapshotCache} {maxStaleAge : Nat} {phase : StorePhase}
  {listed : List (Text × List UInt8)}

theorem isTmp_temporary (attempt : Attempt) : isTmp attempt.temporary = true :=
  isSuffixOf_iff_suffix.mpr (suffix_append _ _)

theorem sameGenerations_put (live : Directory Text (List UInt8)) (attempt : Attempt)
    (file : File (List UInt8)) : SameGenerations (live.put attempt.temporary file) live := by
  intro entry hTmp
  have hNe : entry.1 ≠ attempt.temporary := by
    intro hEq
    rw [hEq, isTmp_temporary] at hTmp
    cases hTmp
  rw [Directory.mem_put, and_iff_left hNe, or_iff_right]
  rintro rfl
  exact hNe rfl

theorem sameGenerations_erase (live : Directory Text (List UInt8)) (attempt : Attempt) :
    SameGenerations (live.erase attempt.temporary) live := by
  intro _ hTmp
  rw [Directory.mem_erase, and_iff_left]
  intro hEq
  rw [hEq, isTmp_temporary] at hTmp
  cases hTmp

variable {next : StorePhase} {snapshot : VersionedAuthorizationSnapshot}

/-- The next phase, after a change of the temporary file. -/
theorem Going.changeTmp (h : Going sha256 clock given disk phase attempt)
    (hSame : SameGenerations live disk.live) (hDone : Done sha256 (disk.change live) attempt next) :
    Going sha256 clock given (disk.change live) next attempt :=
  { h with above := fun x hx => h.above x (hSame.mayHold.mp hx), done := hDone }

theorem prepareStore_eq_ok {nonce : Nat}
    (h : prepareStore sha256 maxStaleAge listed nonce snapshot time = .ok attempt)
    (hNonce : nonce < 2 ^ 64) :
    checkStore snapshot (loadUnlocked sha256 maxStaleAge listed time false) = .ok () ∧
      attempt.snapshot = snapshot ∧
      Stored sha256 (attempt.finalPath, ⟨attempt.bytes, true⟩) snapshot time := by
  obtain ⟨⟨⟩, hCheck, h⟩ := bind_eq_ok.mp h
  obtain ⟨_, hBytes, h⟩ := bind_eq_ok.mp h
  obtain ⟨millis, hMillis, h⟩ := bind_eq_ok.mp h
  cases h
  exact ⟨hCheck, rfl, ⟨millis, nonce, hMillis, hNonce, rfl⟩, hBytes, rfl⟩

namespace Kept

/-- No call is in progress. -/
theorem of_idle (hSound : Sound sha256 s.clock s.given s.acked s.disk)
    (hNonce : s.nextGeneration < 2 ^ 64) (hCall : s.call = none) : Kept sha256 s where
  sound := hSound
  nonce := hNonce
  call := by
    intro _ _ hSome
    cases hCall.symm.trans hSome

theorem init : Kept sha256 FileSnapshotCache.init := by
  have hNone : ∀ x, ¬MayHold sha256 FileSnapshotCache.init.disk x := by
    rintro _ ⟨_, hState, _, hEntry, -⟩
    cases mem_singleton.mp hState
    cases hEntry
  refine of_idle ⟨?_, ?_, ?_, ?_⟩ (Nat.one_lt_two_pow (by decide)) rfl
  · refine forall_mem_singleton.mpr fun entry hEntry => ?_
    cases hEntry
  · exact fun x y hx => absurd hx (hNone x)
  · exact fun x hx => absurd hx (hNone x)
  · intro _ hx
    cases hx

theorem store
    {listed : List (Text × List UInt8)} (h : Kept sha256 s)
    (hStep : s.step sha256 maxStaleAge (.store snapshot time listed) = some s') :
    Kept sha256 s' := by
  simp only [FileSnapshotCache.step] at hStep
  split at hStep
  · rename_i hEnabled
    obtain ⟨hIdle, hListed⟩ := hEnabled
    have hSound := h.sound.mono (le_max_left s.clock time) (subset_cons_self snapshot s.given)
    split at hStep
    · rename_i hPrepared
      cases hStep
      obtain ⟨hCheck, rfl, hStored⟩ := prepareStore_eq_ok hPrepared h.nonce
      refine ⟨hSound, Nat.mod_lt _ (by decide), ?_⟩
      intro _ _ hCall
      cases hCall
      exact
        { stored := ⟨time, hStored, le_max_right s.clock time⟩
          given := mem_cons_self
          above := h.sound.above_of_checkStore hListed hCheck
          done := trivial }
    · cases hStep
      exact of_idle hSound h.nonce (isNone_iff_eq_none.mp hIdle)
  · cases hStep

theorem failed (h : Kept sha256 s) {disk : Disk Text (List UInt8)}
    (hSound : Sound sha256 s.clock s.given s.acked disk) : Kept sha256 (s.failed disk) :=
  of_idle hSound h.nonce rfl

variable {phase : StorePhase}

section

variable (h : Kept sha256 s)
include h

/-- The temporary file has been changed, and the call goes on. -/
theorem changeTmp (hCall : s.call = some (phase, attempt))
    (hSame : SameGenerations live s.disk.live)
    (hDone : Done sha256 (s.disk.change live) attempt next) :
    Kept sha256 { s with disk := s.disk.change live, call := some (next, attempt) } where
  sound := h.sound.changeTmp hSame
  nonce := h.nonce
  call := by
    intro _ _ hCall'
    cases hCall'
    exact (h.call phase attempt hCall).changeTmp hSame hDone

theorem rename (hCall : s.call = some (.rename, attempt)) :
    Kept sha256 (s.proceed attempt .rename) := by
  have hGoing := h.call _ _ hCall
  obtain ⟨time, hStored, hTime⟩ := hGoing.stored
  have hFile : s.disk.live.file? attempt.temporary = some ⟨attempt.bytes, true⟩ := hGoing.done
  have hSound := h.sound.rename hStored hTime hGoing.given hGoing.above (isTmp_temporary attempt)
  simp only [FileSnapshotCache.proceed, Disk.rename, hFile, map_some]
  refine ⟨hSound, h.nonce, ?_⟩
  intro _ _ hCall'
  cases hCall'
  have hNew : (attempt.finalPath, (⟨attempt.bytes, true⟩ : File (List UInt8))) ∈
      (s.disk.live.erase attempt.temporary).put attempt.finalPath ⟨attempt.bytes, true⟩ :=
    Directory.mem_put.mpr (.inl rfl)
  refine ⟨hGoing.stored, hGoing.given, ?_, _, hNew, rfl, time, hStored⟩
  intro x hx
  obtain ⟨y, ⟨entry, hEntry, time', hStored'⟩, hxy⟩ := hSound.dominated x hx
  rcases Directory.mem_put.mp hEntry with rfl | ⟨hOld, -⟩
  · exact hxy.trans (.inl (hStored'.unique hStored))
  · refine hxy.trans (hGoing.above y ⟨s.disk.live, Disk.live_mem_states, entry,
      ?_, time', hStored'⟩)
    exact (Directory.mem_erase.mp hOld).1

theorem syncDirectory (hCall : s.call = some (.syncDirectory, attempt)) :
    Kept sha256 (s.proceed attempt .syncDirectory) where
  sound := h.sound.syncDirectory
  nonce := h.nonce
  call := by
    have hGoing := h.call _ _ hCall
    intro _ _ hCall'
    cases hCall'
    -- the new name is in the directory, and now it is in all that a crash can leave
    exact
      { stored := hGoing.stored
        given := hGoing.given
        above := fun x hx =>
          hGoing.above x ⟨s.disk.live, Disk.live_mem_states, mayHold_syncDirectory.mp hx⟩
        done := forall_mem_singleton.mpr hGoing.done }

theorem proceed (hCall : s.call = some (phase, attempt)) :
    Kept sha256 (s.proceed attempt phase) := by
  have hGoing := h.call _ _ hCall
  have hRemoved : Sound sha256 s.clock s.given s.acked (s.disk.remove attempt.temporary) :=
    h.sound.changeTmp (sameGenerations_erase _ attempt)
  cases phase with
  | create =>
    unfold FileSnapshotCache.proceed Disk.create
    cases hFile : s.disk.live.file? attempt.temporary with
    | none => exact h.changeTmp hCall (sameGenerations_put _ attempt _) trivial
    | some => exact h.failed hRemoved
  | write =>
    exact h.changeTmp hCall (sameGenerations_put _ attempt _)
      ⟨false, Directory.file?_put_self⟩
  | syncFile =>
    obtain ⟨_, hFile⟩ := hGoing.done
    simp only [FileSnapshotCache.proceed, Disk.syncFile, hFile]
    exact h.changeTmp hCall (sameGenerations_put _ attempt _) Directory.file?_put_self
  | rename => exact h.rename hCall
  | syncDirectory => exact h.syncDirectory hCall
  | clean =>
    refine of_idle { h.sound with acked := ?_ } h.nonce rfl
    exact forall_mem_cons.mpr
      ⟨⟨attempt.finalPath, attempt.snapshot, hGoing.done, UpTo.refl _⟩, h.sound.acked⟩

theorem removeOld {name : Text} (hCall : s.call = some (.clean, attempt))
    (hOld : name ≠ attempt.finalPath) : Kept sha256 { s with disk := s.disk.remove name } := by
  have hGoing := h.call _ _ hCall
  refine ⟨h.sound.clean hGoing.done hGoing.above hOld, h.nonce, ?_⟩
  intro _ _ hCall'
  cases hCall.symm.trans hCall'
  exact ⟨hGoing.stored, hGoing.given, fun x hx => hGoing.above x (mayHold_remove hx),
    MustHold.remove hGoing.done hOld⟩

theorem step {a : CacheAction}
    (hStep : s.step sha256 maxStaleAge a = some s') : Kept sha256 s' := by
  cases a with
  | store => exact h.store hStep
  | proceed =>
    obtain ⟨⟨_, _⟩, hCall, rfl⟩ := map_eq_some_iff.mp hStep
    exact h.proceed hCall
  | writePart bytes =>
    simp only [FileSnapshotCache.step] at hStep
    split at hStep
    · rename_i attempt hCall
      cases hStep
      have hKept : Kept sha256 { s with
          disk := s.disk.write attempt.temporary bytes, call := some (.write, attempt) } :=
        h.changeTmp hCall (sameGenerations_put _ attempt _) trivial
      rwa [← hCall] at hKept
    · cases hStep
  | removeOld name =>
    simp only [FileSnapshotCache.step] at hStep
    split at hStep
    · rename_i hCall
      split_ifs at hStep with hOld
      cases hStep
      simp only [FileSnapshotCache.isOld, Bool.and_eq_true, decide_eq_true_eq] at hOld
      exact h.removeOld hCall hOld.1.1
    · cases hStep
  | fail =>
    simp only [FileSnapshotCache.step] at hStep
    split at hStep
    · cases hStep
    · cases hStep
      exact h.failed h.sound
    · cases hStep
      refine h.failed ?_
      split_ifs
      · exact h.sound.changeTmp (sameGenerations_erase _ _)
      · exact h.sound
  | kill =>
    cases hStep
    exact of_idle h.sound (Nat.one_lt_two_pow (by decide)) rfl
  | crash =>
    simp only [FileSnapshotCache.step] at hStep
    split_ifs at hStep with hSurvives
    cases hStep
    exact of_idle (h.sound.crash hSurvives) (Nat.one_lt_two_pow (by decide)) rfl

end

end Kept

/-! ## Calls -/

/-- A change on the way to a generation of `x`: nothing else is added, and what was there
may still be brought back. -/
def Alters (sha256 : Hash) (disk disk' : Disk Text (List UInt8))
    (x : VersionedAuthorizationSnapshot) : Prop :=
  disk.live ∈ disk'.states ∧ ∀ y, MayHold sha256 disk' y → y = x ∨ MayHold sha256 disk y

theorem alters_changeTmp (hSame : SameGenerations live disk.live)
    (x : VersionedAuthorizationSnapshot) : Alters sha256 disk (disk.change live) x :=
  ⟨mem_cons_of_mem _ Disk.live_mem_states, fun _ hy => .inr (hSame.mayHold.mp hy)⟩

/-- How a call stands after one of its operations. -/
def Continues (sha256 : Hash) (s : FileSnapshotCache) (attempt : Attempt) : Prop :=
  (∃ next, s.call = some (next, attempt)) ∨ s.call = none ∧ (s.reply = some (.error .io) ∨
      s.reply = some (.ok ()) ∧ attempt.snapshot ∈ s.acked ∧
        Holds sha256 s.disk.live attempt.snapshot)

theorem Kept.proceed_effect (h : Kept sha256 s) (hCall : s.call = some (phase, attempt)) :
    (s.proceed attempt phase).given = s.given ∧
      Alters sha256 s.disk (s.proceed attempt phase).disk attempt.snapshot ∧
      Continues sha256 (s.proceed attempt phase) attempt := by
  have hGoing := h.call _ _ hCall
  have hRemoved : Alters sha256 s.disk (s.disk.remove attempt.temporary) attempt.snapshot :=
    alters_changeTmp (sameGenerations_erase _ attempt) _
  cases phase with
  | create =>
    unfold FileSnapshotCache.proceed Disk.create
    cases hFile : s.disk.live.file? attempt.temporary with
    | none =>
      exact ⟨rfl, alters_changeTmp (sameGenerations_put _ attempt _) _, .inl ⟨_, rfl⟩⟩
    | some => exact ⟨rfl, hRemoved, .inr ⟨rfl, .inl rfl⟩⟩
  | write => exact ⟨rfl, alters_changeTmp (sameGenerations_put _ attempt _) _, .inl ⟨_, rfl⟩⟩
  | syncFile =>
    obtain ⟨_, hFile⟩ := hGoing.done
    simp only [FileSnapshotCache.proceed, Disk.syncFile, hFile]
    exact ⟨trivial, alters_changeTmp (sameGenerations_put _ attempt _) _, .inl ⟨_, rfl⟩⟩
  | rename =>
    obtain ⟨_, hStored, -⟩ := hGoing.stored
    have hFile : s.disk.live.file? attempt.temporary = some ⟨attempt.bytes, true⟩ := hGoing.done
    simp only [FileSnapshotCache.proceed, Disk.rename, hFile, map_some]
    exact ⟨trivial, ⟨mem_cons_of_mem _ Disk.live_mem_states,
      fun y hy => mayHold_rename hStored hy⟩, .inl ⟨_, rfl⟩⟩
  | syncDirectory =>
    refine ⟨rfl, ⟨Disk.live_mem_states, fun y hy => .inr ?_⟩, .inl ⟨_, rfl⟩⟩
    exact ⟨s.disk.live, Disk.live_mem_states, mayHold_syncDirectory.mp hy⟩
  | clean =>
    refine ⟨rfl, ⟨Disk.live_mem_states, fun y hy => .inr hy⟩,
      Or.inr ⟨rfl, .inr ⟨rfl, mem_cons_self, ?_⟩⟩⟩
    have hDurable : MustHold sha256 s.disk attempt.finalPath attempt.snapshot := hGoing.done
    obtain ⟨entry, hEntry, -, hStored⟩ := hDurable _ Disk.live_mem_states
    exact ⟨entry, hEntry, hStored⟩

/-- What an operation of a call can do. -/
theorem Kept.operation {a : CacheAction} (h : Kept sha256 s) (hOperation : a.isOperation)
    (hStep : s.step sha256 maxStaleAge a = some s') :
    ∃ phase attempt, s.call = some (phase, attempt) ∧ s'.given = s.given ∧
      Alters sha256 s.disk s'.disk attempt.snapshot ∧ Continues sha256 s' attempt := by
  cases a with
  | proceed =>
    obtain ⟨⟨phase, attempt⟩, hCall, rfl⟩ := map_eq_some_iff.mp hStep
    exact ⟨phase, attempt, hCall, h.proceed_effect hCall⟩
  | writePart bytes =>
    simp only [FileSnapshotCache.step] at hStep
    split at hStep
    · rename_i attempt hCall
      cases hStep
      exact ⟨_, attempt, hCall, rfl, alters_changeTmp (sameGenerations_put _ attempt _) _,
        Or.inl ⟨_, hCall⟩⟩
    · cases hStep
  | removeOld name =>
    simp only [FileSnapshotCache.step] at hStep
    split at hStep
    · rename_i attempt hCall
      split_ifs at hStep
      cases hStep
      exact ⟨_, attempt, hCall, rfl, ⟨mem_cons_of_mem _ Disk.live_mem_states,
        fun y hy => .inr (mayHold_remove hy)⟩, .inl ⟨_, hCall⟩⟩
    · cases hStep
  | fail removed =>
    have hSame : ∀ x, Alters sha256 s.disk s.disk x :=
      fun x => ⟨Disk.live_mem_states, fun y hy => .inr hy⟩
    simp only [FileSnapshotCache.step] at hStep
    split at hStep
    · cases hStep
    · rename_i attempt hCall
      cases hStep
      exact ⟨_, attempt, hCall, rfl, hSame _, .inr ⟨rfl, .inl rfl⟩⟩
    · rename_i phase attempt _ hCall
      cases hStep
      refine ⟨phase, attempt, hCall, rfl, ?_, .inr ⟨rfl, .inl rfl⟩⟩
      show Alters sha256 s.disk (if removed then _ else _) _
      split_ifs
      · exact alters_changeTmp (sameGenerations_erase _ attempt) _
      · exact hSame _
  | store | kill | crash => cases hOperation

/-- A store of a snapshot that nothing in the directory exceeds is not refused for its
version. -/
theorem Kept.store_effect
    (h : Kept sha256 s) (hAbove : ∀ x, MayHold sha256 s.disk x → VersionUpTo x snapshot)
    (hStep : s.step sha256 maxStaleAge (.store snapshot time listed) = some s') :
    s.call = none ∧ s'.given = snapshot :: s.given ∧ s'.disk = s.disk ∧
      ((∃ phase attempt, s'.call = some (phase, attempt) ∧ attempt.snapshot = snapshot) ∨
        s'.call = none ∧ ∃ error, s'.reply = some (.error error) ∧ error.ofReading) := by
  simp only [FileSnapshotCache.step] at hStep
  split at hStep
  · rename_i hEnabled
    obtain ⟨hIdle, hListed⟩ := hEnabled
    rw [isNone_iff_eq_none] at hIdle
    split at hStep
    · rename_i attempt hPrepared
      cases hStep
      obtain ⟨-, hSnapshot, -⟩ := prepareStore_eq_ok hPrepared h.nonce
      exact ⟨hIdle, rfl, rfl, .inl ⟨_, attempt, rfl, hSnapshot⟩⟩
    · rename_i error hPrepared
      cases hStep
      refine ⟨hIdle, rfl, rfl, .inr ⟨hIdle, error, rfl, ?_⟩⟩
      have hCheck :
          checkStore snapshot (loadUnlocked sha256 maxStaleAge listed time false) = .ok () ∨
          ∃ error, error.ofReading ∧
            checkStore snapshot (loadUnlocked sha256 maxStaleAge listed time false) =
              .error error := by
        rcases h.sound.load_cases hListed time maxStaleAge with
          ⟨hLoad, -⟩ | ⟨error, hError, hLoad⟩ | ⟨cached, hLoad, hHolds, -⟩
        · exact .inl (by rw [hLoad, checkStore])
        · refine .inr ⟨error, hError, ?_⟩
          rw [hLoad, checkStore]
          rintro rfl
          cases hError
        · -- the directory holds this snapshot or an older one
          have hUpTo := hAbove _ ⟨_, Disk.live_mem_states, hHolds⟩
          have hNotStale : ¬snapshot.version < cached.snapshot.version := hUpTo.version_le.not_gt
          have hNoConflict :
              ¬(snapshot.version = cached.snapshot.version ∧ snapshot ≠ cached.snapshot) :=
            fun hBoth => hBoth.2 (hUpTo.eq_of_version_le hBoth.1.le).symm
          exact .inl (by rw [hLoad, checkStore, if_neg hNotStale, if_neg hNoConflict])
      rcases hCheck with hOk | ⟨_, hError, hRefused⟩
      · rw [prepareStore, hOk, ok_bind] at hPrepared
        cases hBytes : encodeCacheRecord sha256 snapshot time with
        | error =>
          rw [hBytes] at hPrepared
          cases hPrepared
          exact encodeCacheRecord_error hBytes
        | ok =>
          rw [hBytes, ok_bind] at hPrepared
          cases hMillis : unixMillis time with
          | error =>
            rw [hMillis] at hPrepared
            cases hPrepared
            exact unixMillis_error hMillis
          | ok =>
            rw [hMillis, ok_bind] at hPrepared
            cases hPrepared
      · rw [prepareStore, hRefused] at hPrepared
        cases hPrepared
        exact hError
  · cases hStep

/-- **The file cache never rolls back.** In every run, with kills, crashes and failures
between any two operations: what can be loaded was given to `store`, and it is the snapshot
of every store that has returned, or newer; once a store has returned, something is loaded,
unless the clock is behind that of a store; temporary files make no difference; and a store
of an older snapshot, or of another one of the same version, is refused and changes
nothing. -/
theorem cache_never_rolls_back {maxStaleAge : Nat} {actions : List CacheAction}
    (hRun : exec (FileSnapshotCache.step sha256 maxStaleAge) FileSnapshotCache.init
      actions = some s) :
    ∀ listed, listed.Perm s.files → ∀ now,
      (∀ cached, loadUnlocked sha256 maxStaleAge listed now false = .ok cached →
        cached.snapshot ∈ s.given ∧ ∀ acked ∈ s.acked, acked = cached.snapshot ∨
          acked.version < cached.snapshot.version) ∧
      (s.clock ≤ now → s.acked ≠ [] →
        ∃ cached, loadUnlocked sha256 maxStaleAge listed now false = .ok cached) ∧
      loadUnlocked sha256 maxStaleAge (listed.filter fun file => !isTmp file.1) now false =
        loadUnlocked sha256 maxStaleAge listed now false ∧
      ∀ snapshot cached, loadUnlocked sha256 maxStaleAge listed now false = .ok cached →
        s.call = none → snapshot ≠ cached.snapshot →
        snapshot.version ≤ cached.snapshot.version →
          ∃ s' error, s.step sha256 maxStaleAge (.store snapshot now listed) = some s' ∧
            s'.reply = some (.error error) ∧ s'.disk = s.disk ∧
            (error = .staleVersion cached.snapshot.version.value snapshot.version.value ∨
              error = .conflictingVersion snapshot.version.value) := by
  have hKept : Kept sha256 s := exec_induction (fun _ _ _ h hStep => h.step hStep)
    Kept.init hRun
  have hAcked : ∀ x ∈ s.acked, ∃ y, Holds sha256 s.disk.live y ∧ VersionUpTo x y := by
    intro x hx
    obtain ⟨_, y, hy, hUpTo⟩ := hKept.sound.acked x hx
    obtain ⟨entry, hEntry, -, hStored⟩ := hy _ Disk.live_mem_states
    exact ⟨y, ⟨entry, hEntry, hStored⟩, hUpTo⟩
  intro listed hListed now
  refine ⟨?_, ?_, loadUnlocked_filter_tmp maxStaleAge false, ?_⟩
  · intro _ hCached
    rcases hKept.sound.load_cases hListed now maxStaleAge with
      ⟨hMissing, -⟩ | ⟨error, -, hError⟩ | ⟨cached', hOk, ⟨entry, hEntry, time, hStored⟩, hTop⟩
    · cases hCached.symm.trans hMissing
    · cases hCached.symm.trans hError
    · cases hCached.symm.trans hOk
      refine ⟨?_, ?_⟩
      · rcases hKept.sound.entries _ Disk.live_mem_states entry hEntry with
          hTmp | ⟨x, time', hStored', -, hGiven⟩
        · rw [hStored.notTmp] at hTmp
          cases hTmp
        · exact hStored.unique hStored' ▸ hGiven
      · intro x hx
        obtain ⟨y, hy, hUpTo⟩ := hAcked x hx
        exact hUpTo.trans (hTop y hy)
  · intro hNow hSome
    obtain ⟨x, hx⟩ := exists_mem_of_ne_nil _ hSome
    obtain ⟨_, hy, -⟩ := hAcked x hx
    exact hKept.sound.exists_load hListed hNow maxStaleAge hy
  · intro snapshot cached hCached hIdle hNe hLe
    obtain ⟨error, hRefused, hError⟩ : ∃ error, checkStore snapshot (.ok cached) = .error error ∧
        (error = .staleVersion cached.snapshot.version.value snapshot.version.value ∨
          error = .conflictingVersion snapshot.version.value) := by
      rw [checkStore]
      split_ifs with hStale hConflict
      · exact ⟨_, rfl, .inl rfl⟩
      · exact ⟨_, rfl, .inr rfl⟩
      · exact absurd ⟨hLe.antisymm (le_of_not_gt hStale), hNe⟩ hConflict
    have hPrepared : prepareStore sha256 maxStaleAge listed s.nextGeneration snapshot now =
        .error error := by
      rw [prepareStore, hCached, hRefused]
      rfl
    refine ⟨{ s with
      clock := max s.clock now, given := snapshot :: s.given, reply := some (.error error) },
      error, ?_, rfl, rfl, hError⟩
    rw [FileSnapshotCache.step, if_pos ⟨isNone_iff_eq_none.mpr hIdle, hListed⟩]
    simp only [hPrepared]

end

namespace CacheExample

/-- A digest that detects nothing. -/
def noDigest : Hash := fun _ => .replicate 32 0

/-- One Agent with one tunnel, under the certificate of bytes `k`. -/
def snapshot (version : SnapshotVersion) (k : UInt8) : VersionedAuthorizationSnapshot :=
  let tunnelId : TunnelId := ⟨[119], DurableId.valid_w⟩
  let agent : AuthorizedAgent := ⟨⟨[97], DurableId.valid_a⟩,
    Std.ExtTreeMap.ofList [(tunnelId, TunnelStatus.enabled)]⟩
  let certificate : CertificateFingerprint := .replicate 32 k
  ⟨version, ⟨Std.ExtTreeMap.ofList [(certificate, agent)]⟩⟩

def one : VersionedAuthorizationSnapshot := snapshot .first 7

def two : VersionedAuthorizationSnapshot := snapshot ⟨2, Nat.two_pos, Nat.le_of_ble_eq_true rfl⟩ 8

def oneFile : Text × List UInt8 :=
  (generationStem 1 5 1 ++ tpcSuffix, (encodeCacheRecord noDigest one 5000000).toOption.getD [])

/-- What is left of a temporary file. -/
def torn : Text × List UInt8 := (generationStem 2 9 2 ++ tmpSuffix, [84, 80])

/-- Version 1 is stored; the machine crashes when version 2 has been written to its
temporary file, and the process is killed when it has been renamed the second time. -/
def actions : List CacheAction :=
  [.store one 5000000 []] ++ List.replicate 6 .proceed ++ [.store two 9000000 [oneFile]] ++
    List.replicate 3 .proceed ++
    [.crash [(torn.1, ⟨torn.2, true⟩), (oneFile.1, ⟨oneFile.2, true⟩)],
      .store two 12000000 [oneFile, torn]] ++ List.replicate 4 .proceed ++ [.kill]

end CacheExample

open CacheExample in
/-- Version 1 was acknowledged, and version 2 is loaded. -/
theorem cache_never_rolls_back_crashed :
    ∃ s, exec (FileSnapshotCache.step noDigest 60) FileSnapshotCache.init actions =
        some s ∧ s.acked = [one] ∧
      ∃ cached, loadUnlocked noDigest 60 s.files 13000000 false = .ok cached ∧
        cached.snapshot = two ∧
          (one = cached.snapshot ∨ one.version < cached.snapshot.version) := by
  obtain ⟨s, hExec, hAcked, hClock, hTwo⟩ :
      ∃ s, exec (FileSnapshotCache.step noDigest 60) FileSnapshotCache.init actions = some s ∧
      s.acked = [one] ∧ s.clock ≤ 13000000 ∧
      (loadUnlocked noDigest 60 s.files 13000000 false).toOption.map (·.snapshot) = some two := by
    decide +kernel
  obtain ⟨hLoaded, hSome, -⟩ :=
    cache_never_rolls_back hExec s.files (Perm.refl _) 13000000
  obtain ⟨cached, hCached⟩ := hSome hClock (by simp [hAcked])
  rw [hCached] at hTwo
  refine ⟨s, hExec, hAcked, cached, hCached, Option.some.inj hTwo, ?_⟩
  exact (hLoaded cached hCached).2 one (by simp [hAcked])

end TunnelProxy.Control
