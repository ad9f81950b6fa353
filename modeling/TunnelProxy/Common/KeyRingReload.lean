import Mathlib.Order.Nat
import TunnelProxy.Common.Identity
import TunnelProxy.Lib.Versioned

/-!
# Reloading the signed-access keys

Each attempt of the reload runtime loads a manifest and a ring, which may fail, and offers
the ring to the one in use. Only a newer generation replaces the keys; an older one, and the
same generation with another digest, are refused. What the attempts should amount to is a
history that is computed from the candidates alone, by their generations and digests, and the
ring is compared with it.

* `Reports.reloadOnce` — an attempt keeps ring and history together
* `key_ring_reloads` — the keys in use, and when the failure flag is right
* `unchanged_keeps_failed` — the flag outlasts an attempt that does not fail
-/

namespace TunnelProxy.Common

open Versioned

/-- The key ids of a ring, with the keys that verify their signatures. -/
abbrev SignedAccessKeys := Std.ExtTreeMap Nat (FixedBytes 32)

structure SignedAccessKeyRingReloadStatus where
  generation : Nat
  reloadFailed : Bool
  successfulReloads : Nat
  failedReloads : Nat

inductive SignedAccessKeyRingActivation where
  | activated
  | unchanged
  | stale
  | conflictingGeneration

/-- A generation that was loaded, with the keys of its ring. -/
structure KeyRingCandidate where
  generation : Nat
  manifestDigest : FixedBytes 32
  keys : SignedAccessKeys

structure SignedAccessKeyRing where
  keys : SignedAccessKeys
  reload : Option SignedAccessKeyRingReloadStatus
  manifestDigest : Option (FixedBytes 32)

namespace SignedAccessKeyRing

/-- `u64::saturating_add(1)` -/
def countUp (count : Nat) : Nat := min (count + 1) (2 ^ 64 - 1)

/-- `SignedAccessKeyRing::new` and `initialize_reload`, as `bootstrap` calls them. -/
def bootstrap (first : KeyRingCandidate) : SignedAccessKeyRing :=
  ⟨first.keys, some ⟨first.generation, false, 0, 0⟩, some first.manifestDigest⟩

def markReloadFailed (ring : SignedAccessKeyRing) : SignedAccessKeyRing :=
  { ring with
    reload := ring.reload.map fun status =>
      { status with reloadFailed := true, failedReloads := countUp status.failedReloads } }

def activateReloadCandidate (ring : SignedAccessKeyRing) (candidate : KeyRingCandidate) :
    SignedAccessKeyRingActivation × SignedAccessKeyRing :=
  match ring.reload with
  | none => (.stale, ring)
  | some status =>
    if candidate.generation < status.generation then (.stale, ring)
    else if candidate.generation = status.generation then
      if ring.manifestDigest = some candidate.manifestDigest then (.unchanged, ring)
      else (.conflictingGeneration, ring)
    else
      (.activated,
        { keys := candidate.keys
          manifestDigest := some candidate.manifestDigest
          reload := some { status with
            generation := candidate.generation
            reloadFailed := false
            successfulReloads := countUp status.successfulReloads } })

/-- `reload_once`; a candidate that could not be loaded is `none`. -/
def reloadOnce (ring : SignedAccessKeyRing) : Option KeyRingCandidate → SignedAccessKeyRing
  | none => ring.markReloadFailed
  | some candidate =>
    match ring.activateReloadCandidate candidate with
    | (.activated, ring) | (.unchanged, ring) => ring
    | (.stale, ring) | (.conflictingGeneration, ring) => ring.markReloadFailed

def reloadAll (ring : SignedAccessKeyRing) (attempts : List (Option KeyRingCandidate)) :
    SignedAccessKeyRing :=
  attempts.foldl reloadOnce ring

/-- `reload_status().generation` -/
def generation (ring : SignedAccessKeyRing) : Option Nat := ring.reload.map (·.generation)

/-- `reload_status().reload_failed` -/
def reloadFailed (ring : SignedAccessKeyRing) : Bool := ring.reload.any (·.reloadFailed)

end SignedAccessKeyRing

open SignedAccessKeyRing

/-! ## What the attempts amount to -/

/-- How an attempt ends. -/
inductive AttemptOutcome where
  | failed
  | unchanged
  | activated
deriving DecidableEq

/-- Nothing was loaded, or something older than what is in use, or another one of the same
generation: the attempt fails. -/
def KeyRingCandidate.outcome (current : KeyRingCandidate) :
    Option KeyRingCandidate → AttemptOutcome
  | none => .failed
  | some candidate =>
    if current.generation < candidate.generation then .activated
    else if candidate.generation = current.generation ∧
      candidate.manifestDigest = current.manifestDigest then .unchanged
    else .failed

/-- The candidate that should be in use, the ones activated before it, and how the attempts
ended, newest first. -/
structure KeyRingHistory where
  current : KeyRingCandidate
  older : List KeyRingCandidate
  outcomes : List AttemptOutcome

namespace KeyRingHistory

def start (first : KeyRingCandidate) : KeyRingHistory := ⟨first, [], []⟩

def attempt (history : KeyRingHistory) (offered : Option KeyRingCandidate) : KeyRingHistory :=
  let outcomes := history.current.outcome offered :: history.outcomes
  match offered, history.current.outcome offered with
  | some candidate, .activated => ⟨candidate, history.current :: history.older, outcomes⟩
  | _, _ => { history with outcomes }

/-- The history of a ring that was started with `first`. -/
def after (first : KeyRingCandidate) (attempts : List (Option KeyRingCandidate)) :
    KeyRingHistory :=
  attempts.foldl attempt (start first)

def LastFailed (history : KeyRingHistory) : Prop := history.outcomes.head? = some .failed

/-- The attempts end with some that found the active generation again, right after one that
failed. -/
def UnchangedSinceFailure (history : KeyRingHistory) : Prop :=
  history.outcomes.head? = some .unchanged ∧
    history.outcomes.find? (· ≠ .unchanged) = some .failed

/-- The ring holds what the history says, and the flag is up since the last failure. -/
structure Reports (history : KeyRingHistory) (ring : SignedAccessKeyRing) : Prop where
  growing : Growing KeyRingCandidate.generation (history.current :: history.older)
  ring : ∃ succeeded failed, ring = ⟨history.current.keys,
    some ⟨history.current.generation,
      decide (history.outcomes.find? (· ≠ .unchanged) = some .failed), succeeded, failed⟩,
    some history.current.manifestDigest⟩

variable {history : KeyRingHistory} {ring : SignedAccessKeyRing}

/-- **Step lemma.** The generation in the history grows with every activation. -/
theorem Reports.reloadOnce (h : history.Reports ring) (offered : Option KeyRingCandidate) :
    (history.attempt offered).Reports (ring.reloadOnce offered) ∧
      history.current.generation ≤ (history.attempt offered).current.generation := by
  obtain ⟨hGrowing, succeeded, failed, rfl⟩ := h
  cases offered with
  | none => exact ⟨⟨hGrowing, succeeded, countUp failed, rfl⟩, le_rfl⟩
  | some candidate =>
    rcases Nat.lt_trichotomy candidate.generation history.current.generation with
      hStale | hSame | hNewer
    · have hOutcome : history.current.outcome (some candidate) = .failed := by
        simp [KeyRingCandidate.outcome, hStale.not_gt, hStale.ne]
      simp only [attempt, hOutcome]
      refine ⟨⟨hGrowing, succeeded, countUp failed, ?_⟩, le_rfl⟩
      simp [SignedAccessKeyRing.reloadOnce, activateReloadCandidate, hStale, markReloadFailed]
    · by_cases hDigest : candidate.manifestDigest = history.current.manifestDigest
      · -- the flag is not touched, and the attempt does not count for it
        have hOutcome : history.current.outcome (some candidate) = .unchanged := by
          simp [KeyRingCandidate.outcome, hSame, hDigest]
        simp only [attempt, hOutcome]
        refine ⟨⟨hGrowing, succeeded, failed, ?_⟩, le_rfl⟩
        simp [SignedAccessKeyRing.reloadOnce, activateReloadCandidate, hSame, hDigest]
      · have hOutcome : history.current.outcome (some candidate) = .failed := by
          simp [KeyRingCandidate.outcome, hSame, hDigest]
        simp only [attempt, hOutcome]
        refine ⟨⟨hGrowing, succeeded, countUp failed, ?_⟩, le_rfl⟩
        simp [SignedAccessKeyRing.reloadOnce, activateReloadCandidate, hSame, Ne.symm hDigest,
          markReloadFailed]
    · have hOutcome : history.current.outcome (some candidate) = .activated := by
        simp [KeyRingCandidate.outcome, hNewer]
      simp only [attempt, hOutcome]
      refine ⟨⟨hGrowing.cons hNewer, countUp succeeded, failed, ?_⟩, hNewer.le⟩
      simp [SignedAccessKeyRing.reloadOnce, activateReloadCandidate, hNewer.not_gt, hNewer.ne']

/-- **Run lemma.** -/
theorem Reports.reloadAll (h : history.Reports ring) (attempts : List (Option KeyRingCandidate)) :
    (attempts.foldl attempt history).Reports (ring.reloadAll attempts) ∧
      history.current.generation ≤ (attempts.foldl attempt history).current.generation := by
  induction attempts generalizing history ring with
  | nil => exact ⟨h, le_rfl⟩
  | cons offered _ ih =>
    obtain ⟨hNext, hLe⟩ := h.reloadOnce offered
    exact ⟨(ih hNext).1, hLe.trans (ih hNext).2⟩

theorem Reports.keys_eq (h : history.Reports ring) : ring.keys = history.current.keys := by
  obtain ⟨_, _, rfl⟩ := h.ring
  rfl

theorem Reports.generation_eq (h : history.Reports ring) :
    ring.generation = some history.current.generation := by
  obtain ⟨_, _, rfl⟩ := h.ring
  rfl

theorem Reports.reloadFailed_iff (h : history.Reports ring) :
    ring.reloadFailed = true ↔ history.outcomes.find? (· ≠ .unchanged) = some .failed := by
  obtain ⟨_, _, rfl⟩ := h.ring
  simp [SignedAccessKeyRing.reloadFailed]

/-- An attempt that fails leaves what should be in use. -/
theorem attempt_of_failed {offered : Option KeyRingCandidate}
    (hFailed : history.current.outcome offered = .failed) :
    (history.attempt offered).current = history.current := by
  cases offered <;> simp only [attempt, hFailed]

/-- **Reloads of the key ring.** After any attempts the keys in use are those of the highest
generation activated so far, and the generation never decreases from there on; an attempt
that fails changes neither. The flag is up if and only if the last attempt failed, except
when the attempts end with some that found the active generation unchanged right after one
that failed. -/
theorem key_ring_reloads (first : KeyRingCandidate) (attempts : List (Option KeyRingCandidate)) :
    let ring := (bootstrap first).reloadAll attempts
    let history := after first attempts
    (ring.keys = history.current.keys ∧ ring.generation = some history.current.generation ∧
        (∀ other ∈ history.older, other.generation < history.current.generation) ∧
        ∀ more, ∃ later, (ring.reloadAll more).generation = some later ∧
          history.current.generation ≤ later) ∧
      (∀ offered, history.current.outcome offered = .failed →
        (ring.reloadOnce offered).keys = ring.keys ∧
          (ring.reloadOnce offered).generation = ring.generation) ∧
      ((ring.reloadFailed = true ↔ history.LastFailed) ↔ ¬history.UnchangedSinceFailure) := by
  intro ring history
  have hStart : (start first).Reports (bootstrap first) := ⟨Growing.singleton first, 0, 0, rfl⟩
  have hReports : history.Reports ring := (hStart.reloadAll attempts).1
  refine ⟨⟨hReports.keys_eq, hReports.generation_eq, ?_, ?_⟩, ?_, ?_⟩
  · exact fun other hOther => (List.pairwise_cons.mp hReports.growing).1 other hOther
  · intro more
    obtain ⟨hLater, hLe⟩ := hReports.reloadAll more
    exact ⟨_, hLater.generation_eq, hLe⟩
  · intro offered hFailed
    have hNext := (hReports.reloadOnce offered).1
    rw [hNext.keys_eq, hNext.generation_eq, attempt_of_failed hFailed]
    exact ⟨hReports.keys_eq.symm, hReports.generation_eq.symm⟩
  · rw [hReports.reloadFailed_iff, LastFailed, UnchangedSinceFailure]
    -- only an attempt that found the active generation again hides how the one before it ended
    cases history.outcomes with
    | nil => simp
    | cons outcome _ => cases outcome <;> simp

/-- A load fails, and the next attempt finds the active generation unchanged: it does not
fail, but the flag is still up. -/
theorem unchanged_keeps_failed :
    let first : KeyRingCandidate := ⟨1, ⟨List.replicate 32 0, rfl⟩, ∅⟩
    (after first [none, some first]).outcomes = [.unchanged, .failed] ∧
      ((bootstrap first).reloadAll [none, some first]).reloadFailed = true := by
  decide +kernel

end KeyRingHistory

end TunnelProxy.Common
