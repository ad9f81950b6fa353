import Mathlib.Data.List.Basic

/-!
# A directory on a disk that may crash

The files of a directory, with what a crash leaves of them. What a file holds survives once
the file is synced; creating, renaming and removing names survives once the directory is
synced. Until then a crash may keep or undo each change, one name at a time, in any
combination; a rename is kept or undone as a whole for the new name. An unsynced file may
come back with anything in it.

* `Survives.mem_cases` — an entry after a crash was there before, or was not synced
* `Survives.pinned` — a name that was there in every state since the last sync is still there
-/

namespace CrashDisk

variable {ν β : Type*}

structure File (β : Type*) where
  content : β
  synced : Bool
deriving DecidableEq

abbrev Directory (ν β : Type*) := List (ν × File β)

/-- The directory as the processes see it, and as it was before each change since it was
last synced. -/
structure Disk (ν β : Type*) where
  live : Directory ν β
  past : List (Directory ν β)

namespace Disk

def states (disk : Disk ν β) : List (Directory ν β) := disk.live :: disk.past

def change (disk : Disk ν β) (live : Directory ν β) : Disk ν β := ⟨live, disk.states⟩

def syncDirectory (disk : Disk ν β) : Disk ν β := ⟨disk.live, []⟩

/-- What may be left after a crash. -/
def Survives (disk : Disk ν β) (dir : Directory ν β) : Prop :=
  (∀ entry ∈ dir, ∃ state ∈ disk.states, ∃ old ∈ state,
      old.1 = entry.1 ∧ (old.2.synced → entry = old)) ∧
    ∀ entry ∈ disk.live, (∀ state ∈ disk.past, ∃ old ∈ state, old.1 = entry.1) →
      ∃ kept ∈ dir, kept.1 = entry.1

/-- The name was there in every state since the last sync. -/
def Pinned (disk : Disk ν β) (name : ν) : Prop :=
  ∀ state ∈ disk.states, ∃ entry ∈ state, entry.1 = name

variable {disk : Disk ν β} {live dir : Directory ν β} {name : ν} {entry : ν × File β}

@[simp]
theorem states_change : (disk.change live).states = live :: disk.states := rfl

@[simp]
theorem states_syncDirectory : disk.syncDirectory.states = [disk.live] := rfl

theorem live_mem_states : disk.live ∈ disk.states := List.mem_cons_self

theorem Survives.mem_cases (h : disk.Survives dir) (hEntry : entry ∈ dir) :
    (∃ state ∈ disk.states, entry ∈ state) ∨
      ∃ state ∈ disk.states, ∃ old ∈ state, old.1 = entry.1 ∧ old.2.synced = false := by
  obtain ⟨state, hState, old, hOld, hName, hSynced⟩ := h.1 entry hEntry
  cases hFlag : old.2.synced with
  | true => exact .inl ⟨state, hState, hSynced hFlag ▸ hOld⟩
  | false => exact .inr ⟨state, hState, old, hOld, hName, hFlag⟩

theorem Survives.pinned (h : disk.Survives dir) (hPinned : disk.Pinned name) :
    ∃ entry ∈ dir, entry.1 = name := by
  obtain ⟨hLive, hPast⟩ := List.forall_mem_cons.mp hPinned
  obtain ⟨entry, hEntry, rfl⟩ := hLive
  exact h.2 entry hEntry hPast

end Disk

variable [DecidableEq ν]

namespace Directory

def erase (dir : Directory ν β) (name : ν) : Directory ν β := dir.filter (·.1 ≠ name)

def put (dir : Directory ν β) (name : ν) (file : File β) : Directory ν β :=
  (name, file) :: dir.erase name

def file? (dir : Directory ν β) (name : ν) : Option (File β) :=
  (dir.find? (·.1 = name)).map (·.2)

variable {dir : Directory ν β} {name : ν} {file : File β} {entry : ν × File β}

@[simp]
theorem mem_erase : entry ∈ dir.erase name ↔ entry ∈ dir ∧ entry.1 ≠ name := by
  simp [erase]

@[simp]
theorem mem_put : entry ∈ dir.put name file ↔
    entry = (name, file) ∨ entry ∈ dir ∧ entry.1 ≠ name := by
  simp [put]

@[simp]
theorem file?_put_self : (dir.put name file).file? name = some file := by
  simp [file?, put]

end Directory

namespace Disk

/-- A new, empty file; fails if the name is taken. -/
def create (disk : Disk ν β) (name : ν) (empty : β) : Option (Disk ν β) :=
  match disk.live.file? name with
  | some _ => none
  | none => some (disk.change (disk.live.put name ⟨empty, false⟩))

def write (disk : Disk ν β) (name : ν) (content : β) : Disk ν β :=
  disk.change (disk.live.put name ⟨content, false⟩)

def syncFile (disk : Disk ν β) (name : ν) : Disk ν β :=
  match disk.live.file? name with
  | some file => disk.change (disk.live.put name { file with synced := true })
  | none => disk

/-- The file takes its new name, in place of a file that had it. -/
def rename (disk : Disk ν β) (old new : ν) : Option (Disk ν β) :=
  (disk.live.file? old).map fun file => disk.change ((disk.live.erase old).put new file)

def remove (disk : Disk ν β) (name : ν) : Disk ν β := disk.change (disk.live.erase name)

instance [DecidableEq β] (disk : Disk ν β) (dir : Directory ν β) : Decidable (disk.Survives dir) :=
  inferInstanceAs (Decidable (_ ∧ _))

end Disk

end CrashDisk
