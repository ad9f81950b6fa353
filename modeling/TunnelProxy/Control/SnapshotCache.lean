import TunnelProxy.Lib.CrashDisk
import TunnelProxy.Lib.Transition
import TunnelProxy.Lib.Versioned
import TunnelProxy.Control.CacheRecord

/-!
# The file cache of snapshots

`FileSnapshotCache` keeps the newest snapshot in a generation file of its directory. A store
checks what the directory holds, writes a temporary file, syncs it, renames it, syncs the
directory, and only then removes older files. The process may be killed between any two of
these operations, the machine may crash, and any of them may fail. The directory itself
survives once it is there.

* `loadUnlocked_cases` — among files that agree, only the newest one is loaded
* `loadUnlocked_filter_tmp` — temporary files are ignored
-/

namespace TunnelProxy.Control

open Common Versioned CrashDisk List Option

/-! ## Loading -/

def isTmp (name : Text) : Bool := tmpSuffix.isSuffixOf name

/-- The generation files of the directory, with the versions of their names. -/
def generations : List (Text × List UInt8) → Except SnapshotCacheError (List (Nat × List UInt8))
  | [] => .ok []
  | (name, bytes) :: rest =>
    if isTmp name then generations rest
    else do
      let version ← generationVersion name
      let others ← generations rest
      return version.toList.map (fun version => (version, bytes)) ++ others

def readGeneration (sha256 : Hash) (bytes : List UInt8) (now : Int) :
    Except SnapshotCacheError CachedSnapshot :=
  if maxCacheBytes < bytes.length then .error .tooLarge else decodeCacheRecord sha256 bytes now

/-- The loop over the generations of the highest version. -/
def selectGeneration (sha256 : Hash) (now : Int) (highest : Nat) :
    Option CachedSnapshot → List (List UInt8) → Except SnapshotCacheError (Option CachedSnapshot)
  | selected, [] => .ok selected
  | selected, bytes :: rest =>
    match readGeneration sha256 bytes now with
    | .error error => .error error
    | .ok candidate =>
      if candidate.snapshot.version.value ≠ highest then .error .filenameVersion
      else match selected with
        | none => selectGeneration sha256 now highest (some candidate) rest
        | some current =>
          if current.snapshot ≠ candidate.snapshot then .error (.conflictingVersion highest)
          else if current.authenticatedAt < candidate.authenticatedAt then
            selectGeneration sha256 now highest (some candidate) rest
          else selectGeneration sha256 now highest (some current) rest

/-- `load_unlocked`; `files` are the names and contents of the directory, in the order in
which they are listed. -/
def loadUnlocked (sha256 : Hash) (maxStaleAge : Nat) (files : List (Text × List UInt8))
    (now : Int) (enforceFreshness : Bool) : Except SnapshotCacheError CachedSnapshot := do
  let found ← generations files
  match (found.map (·.1)).max? with
  | none => .error .missing
  | some highest =>
    let newest := (found.filter (·.1 = highest)).map (·.2)
    match ← selectGeneration sha256 now highest none newest with
    | none => .error .missing
    | some selected =>
      if enforceFreshness then
        if now < selected.authenticatedAt then .error .futureTimestamp
        else if maxStaleAge ≤ now - selected.authenticatedAt then .error .expired
        else return selected
      else return selected

section

variable {sha256 : Hash} {now : Int} {files : List (Text × List UInt8)}
  {snapshot : VersionedAuthorizationSnapshot} {contents : List (List UInt8)}
  {selected : Option CachedSnapshot}

/-- The file is a generation of the snapshot. It may carry a later time than that of the
reader; then it cannot be read yet. -/
structure Generation (sha256 : Hash) (file : Text × List UInt8)
    (snapshot : VersionedAuthorizationSnapshot) : Prop where
  notTmp : isTmp file.1 = false
  version : generationVersion file.1 = .ok (some snapshot.version.value)
  content : ∀ now cached, readGeneration sha256 file.2 now = .ok cached → cached.snapshot = snapshot
  readable : ∃ now cached, readGeneration sha256 file.2 now = .ok cached

/-- A file is the generation of one snapshot. -/
theorem Generation.unique {file : Text × List UInt8} {other : VersionedAuthorizationSnapshot}
    (h : Generation sha256 file snapshot) (h' : Generation sha256 file other) :
    snapshot = other := by
  obtain ⟨now, cached, hRead⟩ := h.readable
  exact (h.content now cached hRead).symm.trans (h'.content now cached hRead)

/-- A directory in which every file is temporary or a generation. -/
def Wellformed (sha256 : Hash) (files : List (Text × List UInt8)) : Prop :=
  ∀ file ∈ files, isTmp file.1 ∨ ∃ snapshot, Generation sha256 file snapshot

theorem generations_eq_ok (h : Wellformed sha256 files) :
    ∃ found, generations files = .ok found ∧ ∀ generation, generation ∈ found ↔
      ∃ file ∈ files, ∃ snapshot, Generation sha256 file snapshot ∧
        generation = (snapshot.version.value, file.2) := by
  induction files with
  | nil => exact ⟨[], rfl, by simp⟩
  | cons file _ ih =>
    obtain ⟨found, hFound, hMem⟩ := ih fun other hOther => h other (mem_cons_of_mem _ hOther)
    rcases h file mem_cons_self with hTmp | ⟨snapshot, hGeneration⟩
    · refine ⟨found, ?_, fun generation => (hMem generation).trans ?_⟩
      · rw [generations, if_pos hTmp, hFound]
      · constructor
        · rintro ⟨other, hOther, hRest⟩
          exact ⟨other, mem_cons_of_mem _ hOther, hRest⟩
        · rintro ⟨other, hOther, snapshot, hGeneration, hEq⟩
          rcases mem_cons.mp hOther with rfl | hRest
          · rw [hGeneration.notTmp] at hTmp
            cases hTmp
          · exact ⟨other, hRest, snapshot, hGeneration, hEq⟩
    · refine ⟨(snapshot.version.value, file.2) :: found, ?_, fun generation => ?_⟩
      · rw [generations, hGeneration.notTmp, if_neg Bool.false_ne_true, hGeneration.version,
          ok_bind, hFound, ok_bind]
        rfl
      · rw [mem_cons, hMem]
        constructor
        · rintro (rfl | ⟨other, hOther, hRest⟩)
          · exact ⟨file, mem_cons_self, snapshot, hGeneration, rfl⟩
          · exact ⟨other, mem_cons_of_mem _ hOther, hRest⟩
        · rintro ⟨other, hOther, snapshot', hGeneration', rfl⟩
          rcases mem_cons.mp hOther with rfl | hRest
          · rw [hGeneration.unique hGeneration']
            exact .inl rfl
          · exact .inr ⟨other, hRest, snapshot', hGeneration', rfl⟩

theorem readGeneration_error {bytes : List UInt8} {error : SnapshotCacheError}
    (h : readGeneration sha256 bytes now = .error error) : error.ofReading := by
  rw [readGeneration] at h
  split at h
  · cases h
    rfl
  · exact decodeCacheRecord_error h

/-- What is selected from generations of one snapshot is that snapshot, whatever the time. -/
theorem selectGeneration_cases (highest : Nat)
    (h : ∀ bytes ∈ contents, ∀ cached, readGeneration sha256 bytes now = .ok cached →
      cached.snapshot = snapshot) (hSelected : ∀ cached ∈ selected, cached.snapshot = snapshot) :
    (∃ error, error.ofReading ∧
        selectGeneration sha256 now highest selected contents = .error error) ∨
      ∃ final, selectGeneration sha256 now highest selected contents = .ok final ∧
        (final.isSome ∨ selected = none ∧ contents = []) ∧
        ∀ cached ∈ final, cached.snapshot = snapshot := by
  induction contents generalizing selected with
  | nil =>
    refine .inr ⟨selected, rfl, ?_, hSelected⟩
    cases selected with
    | none => exact .inr ⟨rfl, rfl⟩
    | some => exact .inl rfl
  | cons bytes contents ih =>
    -- the loop goes on with one selected, whichever it is
    have hRest : ∀ next : CachedSnapshot, next.snapshot = snapshot → (∃ error, error.ofReading ∧
          selectGeneration sha256 now highest (some next) contents = .error error) ∨
        ∃ final, selectGeneration sha256 now highest (some next) contents = .ok final ∧
          (final.isSome ∨ selected = none ∧ bytes :: contents = []) ∧
          ∀ cached ∈ final, cached.snapshot = snapshot := by
      intro _ hNext
      refine (ih (fun other hOther => h other (mem_cons_of_mem _ hOther))
        (fun cached hCached => (by cases hCached; exact hNext))).imp_right ?_
      rintro ⟨final, hFinal, hSome | ⟨hNone, -⟩, hSnapshot⟩
      · exact ⟨final, hFinal, .inl hSome, hSnapshot⟩
      · cases hNone
    unfold selectGeneration
    cases hRead : readGeneration sha256 bytes now with
    | error error => exact .inl ⟨error, readGeneration_error hRead, rfl⟩
    | ok candidate =>
      have hCandidate := h bytes mem_cons_self candidate hRead
      dsimp only
      split
      · exact .inl ⟨_, by rfl, rfl⟩
      · cases selected with
        | none => exact hRest candidate hCandidate
        | some current =>
          have hCurrent := hSelected current rfl
          dsimp only
          split
          · rename_i hNe
            exact absurd (hCurrent.trans hCandidate.symm) hNe
          · split
            · exact hRest candidate hCandidate
            · exact hRest current hCurrent

/-- Generations that hold one snapshot are all accepted. -/
theorem selectGeneration_eq_ok
    (h : ∀ bytes ∈ contents, ∃ cached, readGeneration sha256 bytes now = .ok cached ∧
      cached.snapshot = snapshot) (hSelected : ∀ cached ∈ selected, cached.snapshot = snapshot)
    (hSome : selected.isSome ∨ contents ≠ []) :
    ∃ cached, selectGeneration sha256 now snapshot.version.value selected contents =
      .ok (some cached) ∧ cached.snapshot = snapshot := by
  induction contents generalizing selected with
  | nil =>
    obtain ⟨cached, rfl⟩ := isSome_iff_exists.mp (hSome.resolve_right (fun h => h rfl))
    exact ⟨cached, rfl, hSelected cached rfl⟩
  | cons bytes contents ih =>
    obtain ⟨candidate, hRead, hCandidate⟩ := h bytes mem_cons_self
    have hRest : ∀ next : CachedSnapshot, next.snapshot = snapshot →
        ∃ cached, selectGeneration sha256 now snapshot.version.value (some next) contents =
          .ok (some cached) ∧ cached.snapshot = snapshot := fun next hNext =>
      ih (fun other hOther => h other (mem_cons_of_mem _ hOther))
        (fun cached hCached => (by cases hCached; exact hNext)) (.inl rfl)
    have hVersion : ¬candidate.snapshot.version.value ≠ snapshot.version.value := by
      rw [hCandidate]
      exact fun hNe => hNe rfl
    cases selected with
    | none =>
      simp only [selectGeneration, hRead, if_neg hVersion]
      exact hRest candidate hCandidate
    | some current =>
      have hCurrent : current.snapshot = snapshot := hSelected current rfl
      have hSame : ¬current.snapshot ≠ candidate.snapshot := by
        rw [hCurrent, hCandidate]
        exact fun hNe => hNe rfl
      simp only [selectGeneration, hRead, if_neg hVersion, if_neg hSame]
      split_ifs
      · exact hRest candidate hCandidate
      · exact hRest current hCurrent

section

variable (maxStaleAge : Nat) (h : Wellformed sha256 files)
  (hAgree : ∀ a ∈ files, ∀ b ∈ files, ∀ x y, Generation sha256 a x → Generation sha256 b y →
    x.version = y.version → x = y)
  (hSome : ∃ file ∈ files, ∃ snapshot, Generation sha256 file snapshot)
include h hAgree hSome

/-- The generation of the highest version. -/
theorem exists_newest :
    ∃ found top, generations files = .ok found ∧ (found.map (·.1)).max? = some top.version.value ∧
      (∃ file ∈ files, Generation sha256 file top) ∧
      (∀ file ∈ files, ∀ snapshot, Generation sha256 file snapshot →
        UpTo VersionedAuthorizationSnapshot.version snapshot top) ∧
      (found.filter (·.1 = top.version.value)).map (·.2) ≠ [] ∧
      ∀ bytes ∈ (found.filter (·.1 = top.version.value)).map (·.2),
        ∃ file ∈ files, file.2 = bytes ∧ Generation sha256 file top := by
  obtain ⟨found, hFound, hMem⟩ := generations_eq_ok h
  obtain ⟨highest, hHighest⟩ : ∃ highest, (found.map (·.1)).max? = some highest := by
    obtain ⟨file, hFile, snapshot, hReadable⟩ := hSome
    have hGeneration := (hMem _).mpr ⟨file, hFile, snapshot, hReadable, rfl⟩
    exact isSome_iff_exists.mp (isSome_max?_of_mem (mem_map_of_mem hGeneration))
  obtain ⟨hIn, hTop⟩ := max?_eq_some_iff.mp hHighest
  obtain ⟨generation, hGeneration, rfl⟩ := mem_map.mp hIn
  obtain ⟨file, hFile, top, hFileTop, rfl⟩ := (hMem generation).mp hGeneration
  refine ⟨found, top, hFound, hHighest, ⟨file, hFile, hFileTop⟩, ?_, ?_, ?_⟩
  · intro other hOther snapshot hSnapshot
    have hLe : snapshot.version.value ≤ top.version.value := hTop _
      (mem_map_of_mem ((hMem _).mpr ⟨other, hOther, snapshot, hSnapshot, rfl⟩))
    rcases (show snapshot.version ≤ top.version from hLe).eq_or_lt with hEq | hLt
    · exact .inl (hAgree other hOther file hFile _ _ hSnapshot hFileTop hEq)
    · exact .inr hLt
  · refine ne_nil_of_mem (mem_map_of_mem (mem_filter.mpr ⟨hGeneration, ?_⟩))
    exact decide_eq_true rfl
  · -- every generation of the highest version is one of the same snapshot
    intro _ hBytes
    obtain ⟨other, hOther, rfl⟩ := mem_map.mp hBytes
    obtain ⟨hOther, hVersion⟩ := mem_filter.mp hOther
    obtain ⟨file', hFile', snapshot, hSnapshot, rfl⟩ := (hMem other).mp hOther
    obtain rfl : snapshot = top := hAgree file' hFile' file hFile snapshot top hSnapshot hFileTop
      (SnapshotVersion.ext (of_decide_eq_true hVersion))
    exact ⟨file', hFile', rfl, hSnapshot⟩

/-- **Load.** Among generations of which no two hold different snapshots of one version, a
newest one is loaded, or the load fails; it finds nothing missing. -/
theorem loadUnlocked_cases :
    (∃ error, error.ofReading ∧ loadUnlocked sha256 maxStaleAge files now false = .error error) ∨
      ∃ cached, loadUnlocked sha256 maxStaleAge files now false = .ok cached ∧
        (∃ file ∈ files, Generation sha256 file cached.snapshot) ∧
        ∀ file ∈ files, ∀ snapshot, Generation sha256 file snapshot →
          UpTo VersionedAuthorizationSnapshot.version snapshot cached.snapshot := by
  obtain ⟨found, top, hFound, hHighest, hHeld, hTop, hNonempty, hContents⟩ :=
    exists_newest h hAgree hSome
  have hStart : ∀ cached ∈ (none : Option CachedSnapshot), cached.snapshot = top := by simp
  have hSnapshot : ∀ bytes ∈ (found.filter (·.1 = top.version.value)).map (·.2), ∀ cached,
      readGeneration sha256 bytes now = .ok cached → cached.snapshot = top := by
    intro bytes hBytes cached hRead
    obtain ⟨_, -, rfl, hGeneration⟩ := hContents bytes hBytes
    exact hGeneration.content now cached hRead
  rcases selectGeneration_cases top.version.value hSnapshot hStart with
    ⟨error, hError, hSelect⟩ | ⟨final, hSelect, hFinal, hCached⟩
  · refine .inl ⟨error, hError, ?_⟩
    simp only [loadUnlocked, hFound, ok_bind, hHighest, hSelect]
    rfl
  · obtain ⟨cached, rfl⟩ : ∃ cached, final = some cached := by
      rcases hFinal with hFinal | ⟨-, hNil⟩
      · exact isSome_iff_exists.mp hFinal
      · exact absurd hNil hNonempty
    obtain rfl : cached.snapshot = top := hCached cached rfl
    refine .inr ⟨cached, ?_, hHeld, hTop⟩
    simp only [loadUnlocked, hFound, ok_bind, hHighest, hSelect]
    rfl

/-- The load succeeds when the time of every generation has come. -/
theorem loadUnlocked_eq_ok
    (hRead : ∀ file ∈ files, isTmp file.1 = false →
      ∃ cached, readGeneration sha256 file.2 now = .ok cached) :
    ∃ cached, loadUnlocked sha256 maxStaleAge files now false = .ok cached := by
  obtain ⟨found, top, hFound, hHighest, -, -, hNonempty, hContents⟩ :=
    exists_newest h hAgree hSome
  have hStart : ∀ cached ∈ (none : Option CachedSnapshot), cached.snapshot = top := by simp
  have hReadable : ∀ bytes ∈ (found.filter (·.1 = top.version.value)).map (·.2), ∃ cached,
      readGeneration sha256 bytes now = .ok cached ∧ cached.snapshot = top := by
    intro bytes hBytes
    obtain ⟨file, hFile, rfl, hGeneration⟩ := hContents bytes hBytes
    obtain ⟨cached, hCached⟩ := hRead file hFile hGeneration.notTmp
    exact ⟨cached, hCached, hGeneration.content now cached hCached⟩
  obtain ⟨cached, hSelected, -⟩ := selectGeneration_eq_ok hReadable hStart (.inr hNonempty)
  refine ⟨cached, ?_⟩
  simp only [loadUnlocked, hFound, ok_bind, hHighest, hSelected]
  rfl

end

theorem loadUnlocked_missing (maxStaleAge : Nat) (h : ∀ file ∈ files, isTmp file.1) :
    loadUnlocked sha256 maxStaleAge files now false = .error .missing := by
  have hFound : generations files = .ok [] := by
    induction files with
    | nil => rfl
    | cons file _ ih =>
      rw [generations, if_pos (h file mem_cons_self)]
      exact ih fun other hOther => h other (mem_cons_of_mem _ hOther)
  simp only [loadUnlocked, hFound, ok_bind]
  rfl

/-- The freshness check only turns a load into an error. -/
theorem loadUnlocked_fresh (maxStaleAge : Nat) :
    loadUnlocked sha256 maxStaleAge files now true =
        loadUnlocked sha256 maxStaleAge files now false ∨
      ∃ error, error.ofReading ∧ loadUnlocked sha256 maxStaleAge files now true = .error error := by
  unfold loadUnlocked
  cases generations files with
  | error => exact .inl rfl
  | ok found =>
    simp only [ok_bind]
    cases (found.map (·.1)).max? with
    | none => exact .inl rfl
    | some highest =>
      dsimp only
      cases selectGeneration sha256 now highest none
          ((found.filter (·.1 = highest)).map (·.2)) with
      | error error => exact .inl rfl
      | ok selected =>
        cases selected with
        | none => exact .inl rfl
        | some =>
          simp only [ok_bind, if_true]
          split
          · exact .inr ⟨_, rfl, rfl⟩
          · split
            · exact .inr ⟨_, rfl, rfl⟩
            · exact .inl rfl

/-- Temporary files make no difference. -/
theorem loadUnlocked_filter_tmp (maxStaleAge : Nat) (enforceFreshness : Bool) :
    loadUnlocked sha256 maxStaleAge (files.filter fun file => !isTmp file.1) now enforceFreshness =
      loadUnlocked sha256 maxStaleAge files now enforceFreshness := by
  have hFound : generations (files.filter fun file => !isTmp file.1) = generations files := by
    induction files with
    | nil => rfl
    | cons file _ ih =>
      rw [filter_cons]
      cases hTmp : isTmp file.1 with
      | true =>
        rw [generations, if_pos hTmp]
        exact ih
      | false =>
        simp only [Bool.not_false, if_true, generations, hTmp, Bool.false_eq_true, if_false, ih]
  rw [loadUnlocked, loadUnlocked, hFound]

end

/-! ## Storing -/

/-- A generation that is being written. -/
structure Attempt where
  snapshot : VersionedAuthorizationSnapshot
  stem : Text
  bytes : List UInt8

def Attempt.temporary (attempt : Attempt) : Text := attempt.stem ++ tmpSuffix

def Attempt.finalPath (attempt : Attempt) : Text := attempt.stem ++ tpcSuffix

/-- The next operation of a store. -/
inductive StorePhase where
  | create
  | write
  | syncFile
  | rename
  | syncDirectory
  /-- Removing older files. -/
  | clean

/-- What a store does with the snapshot that the directory holds. -/
def checkStore (snapshot : VersionedAuthorizationSnapshot) :
    Except SnapshotCacheError CachedSnapshot → Except SnapshotCacheError Unit
  | .ok current =>
    if snapshot.version < current.snapshot.version then
      .error (.staleVersion current.snapshot.version.value snapshot.version.value)
    else if snapshot.version = current.snapshot.version ∧ snapshot ≠ current.snapshot then
      .error (.conflictingVersion snapshot.version.value)
    else .ok ()
  | .error .missing => .ok ()
  | .error error => .error error

/-- `store_sync` up to its first change of the directory. -/
def prepareStore (sha256 : Hash) (maxStaleAge : Nat) (files : List (Text × List UInt8))
    (nonce : Nat) (snapshot : VersionedAuthorizationSnapshot) (authenticatedAt : Int) :
    Except SnapshotCacheError Attempt := do
  checkStore snapshot (loadUnlocked sha256 maxStaleAge files authenticatedAt false)
  let bytes ← encodeCacheRecord sha256 snapshot authenticatedAt
  let timestamp ← unixMillis authenticatedAt
  return ⟨snapshot, generationStem snapshot.version.value timestamp nonce, bytes⟩

structure FileSnapshotCache where
  disk : Disk Text (List UInt8)
  /-- `NEXT_GENERATION` -/
  nextGeneration : Nat
  /-- The latest time of a store, if there was one after the epoch. -/
  clock : Int
  call : Option (StorePhase × Attempt)
  reply : Option (Except SnapshotCacheError Unit)
  /-- The snapshots of all calls of `store`. -/
  given : List VersionedAuthorizationSnapshot
  /-- Those of the calls that returned `Ok`. -/
  acked : List VersionedAuthorizationSnapshot

inductive CacheAction where
  /-- A call of `store`; `listed` is the directory in the order in which it is read. -/
  | store (snapshot : VersionedAuthorizationSnapshot) (authenticatedAt : Int)
      (listed : List (Text × List UInt8))
  /-- The next operation of the call succeeds. -/
  | proceed
  /-- A part of the bytes is written. -/
  | writePart (bytes : List UInt8)
  | removeOld (name : Text)
  /-- The next operation fails; the temporary file is removed after it, if that succeeds. -/
  | fail (removed : Bool)
  /-- The process ends, and a new one starts. -/
  | kill
  /-- The machine crashes, and the directory is found as `dir`. -/
  | crash (dir : Directory Text (List UInt8))

/-- The operations of a call in progress. -/
def CacheAction.isOperation : CacheAction → Bool
  | .proceed | .writePart _ | .removeOld _ | .fail _ => true
  | _ => false

namespace FileSnapshotCache

def init : FileSnapshotCache :=
  { disk := ⟨[], []⟩, nextGeneration := 1, clock := 0, call := none, reply := none
    given := [], acked := [] }

/-- The files of the directory. -/
def files (s : FileSnapshotCache) : List (Text × List UInt8) :=
  s.disk.live.map fun entry => (entry.1, entry.2.content)

def failed (s : FileSnapshotCache) (disk : Disk Text (List UInt8)) : FileSnapshotCache :=
  { s with disk, call := none, reply := some (.error .io) }

def proceed (s : FileSnapshotCache) (attempt : Attempt) : StorePhase → FileSnapshotCache
  | .create =>
    match s.disk.create attempt.temporary [] with
    | some disk => { s with disk, call := some (.write, attempt) }
    | none => s.failed (s.disk.remove attempt.temporary)
  | .write =>
    { s with
      disk := s.disk.write attempt.temporary attempt.bytes, call := some (.syncFile, attempt) }
  | .syncFile =>
    { s with disk := s.disk.syncFile attempt.temporary, call := some (.rename, attempt) }
  | .rename =>
    match s.disk.rename attempt.temporary attempt.finalPath with
    | some disk => { s with disk, call := some (.syncDirectory, attempt) }
    | none => s.failed (s.disk.remove attempt.temporary)
  | .syncDirectory =>
    { s with disk := s.disk.syncDirectory, call := some (.clean, attempt) }
  | .clean =>
    { s with call := none, reply := some (.ok ()), acked := attempt.snapshot :: s.acked }

/-- The files that a store removes when its own is durable. -/
def isOld (attempt : Attempt) (name : Text) : Bool :=
  name ≠ attempt.finalPath && generationStart.isPrefixOf name &&
    (tpcSuffix.isSuffixOf name || isTmp name)

def step (sha256 : Hash) (maxStaleAge : Nat) (s : FileSnapshotCache) :
    CacheAction → Option FileSnapshotCache
  | .store snapshot authenticatedAt listed =>
    if s.call.isNone ∧ listed.Perm s.files then
      let s := { s with clock := max s.clock authenticatedAt, given := snapshot :: s.given }
      match prepareStore sha256 maxStaleAge listed s.nextGeneration snapshot authenticatedAt with
      | .ok attempt =>
        some { s with
          call := some (.create, attempt)
          nextGeneration := (s.nextGeneration + 1) % 2 ^ 64 }
      | .error error => some { s with reply := some (.error error) }
    else none
  | .proceed => s.call.map fun call => s.proceed call.2 call.1
  | .writePart bytes =>
    match s.call with
    | some (.write, attempt) => some { s with disk := s.disk.write attempt.temporary bytes }
    | _ => none
  | .removeOld name =>
    match s.call with
    | some (.clean, attempt) =>
      if isOld attempt name then some { s with disk := s.disk.remove name } else none
    | _ => none
  | .fail removed =>
    match s.call with
    | none => none
    -- the directory cannot be listed
    | some (.clean, _) => some (s.failed s.disk)
    | some (_, attempt) =>
      some (s.failed (if removed then s.disk.remove attempt.temporary else s.disk))
  | .kill => some { s with call := none, nextGeneration := 1 }
  | .crash dir =>
    if s.disk.Survives dir then
      some { s with disk := ⟨dir, []⟩, call := none, nextGeneration := 1 }
    else none

end FileSnapshotCache

end TunnelProxy.Control
