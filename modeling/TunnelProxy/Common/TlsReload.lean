import Mathlib.Order.Nat
import TunnelProxy.Common.Identity
import TunnelProxy.Lib.Versioned

/-!
# Reloading TLS credentials

`TlsReloadRuntime` polls for a new generation of certificates: it loads the files and builds a
configuration, either of which may fail, publishes it to the `ReloadableConfig` in use, and
ends when the certificate in use has expired. The clock is read twice in each poll, with any
results. A time is in nanoseconds from the epoch.

* `reload_cases` — what a poll does to the configuration in use
* `tls_reloads` — what holds after any polls
-/

namespace TunnelProxy.Common

open Versioned

structure TlsCertificateValidity where
  notBefore : Int
  notAfter : Int

inductive TlsGenerationError where
  | staleGeneration (current received : Nat)
  | conflictingGeneration (generation : Nat)
  | notYetValid
  | expired

inductive TlsConfigHealth where
  | current
  | expiring
  | reloadFailed
  | expired
deriving DecidableEq

/-- A generation that was loaded, with the configuration built from it. -/
structure TlsCandidate (τ : Type) where
  generation : Nat
  manifestDigest : FixedBytes 32
  config : τ
  validity : TlsCertificateValidity

/-- The state of a `ReloadableConfig`: the candidate in use, and the flag. -/
structure ReloadState (τ : Type) where
  active : TlsCandidate τ
  reloadFailed : Bool

def validateCandidateTime (validity : TlsCertificateValidity) (now : Int) :
    Except TlsGenerationError Unit :=
  if now < validity.notBefore then .error .notYetValid
  else if validity.notAfter ≤ now then .error .expired
  else .ok ()

variable {τ : Type}

namespace ReloadState

def publish (state : ReloadState τ) (candidate : TlsCandidate τ) (now : Int) :
    Except TlsGenerationError Bool × ReloadState τ :=
  match validateCandidateTime candidate.validity now with
  | .error error => (.error error, state)
  | .ok () =>
    if candidate.generation < state.active.generation then
      (.error (.staleGeneration state.active.generation candidate.generation), state)
    else if candidate.generation = state.active.generation then
      if candidate.manifestDigest = state.active.manifestDigest then
        (.ok false, { state with reloadFailed := false })
      else (.error (.conflictingGeneration candidate.generation), state)
    else (.ok true, ⟨candidate, false⟩)

def markReloadFailed (state : ReloadState τ) : ReloadState τ := { state with reloadFailed := true }

/-- `status().health` -/
def health (state : ReloadState τ) (now : Int) (expiryWarning : Nat) : TlsConfigHealth :=
  if state.active.validity.notAfter ≤ now then .expired
  else if state.reloadFailed then .reloadFailed
  else if state.active.validity.notAfter - now ≤ expiryWarning then .expiring
  else .current

/-- The load, the build and the publication of one poll, and whether the configuration was
replaced. A load or a build that failed is `none`. -/
def reload (state : ReloadState τ) (loaded : Option (TlsCandidate τ)) (now : Int) :
    Bool × ReloadState τ :=
  match loaded with
  | none => (false, state.markReloadFailed)
  | some candidate =>
    match state.publish candidate now with
    | (.ok applied, state) => (applied, state)
    | (.error _, state) => (false, state.markReloadFailed)

/-- The load or the build failed, or the candidate is outside its validity, or older than the
one in use, or another one with the same generation. -/
def Fails (state : ReloadState τ) (loaded : Option (TlsCandidate τ)) (now : Int) : Prop :=
  ∀ candidate, loaded = some candidate →
    ¬(candidate.validity.notBefore ≤ now ∧ now < candidate.validity.notAfter) ∨
      candidate.generation < state.active.generation ∨
      candidate.generation = state.active.generation ∧
        candidate.manifestDigest ≠ state.active.manifestDigest

/-- It fails, keeps what is in use and raises the flag; or it takes the flag down, and keeps
what is in use or replaces it by a newer candidate. -/
theorem reload_cases (state : ReloadState τ) (loaded : Option (TlsCandidate τ)) (now : Int) :
    (state.Fails loaded now ∧ state.reload loaded now = (false, ⟨state.active, true⟩)) ∨
      ¬state.Fails loaded now ∧ ∃ candidate, loaded = some candidate ∧
        (candidate.generation = state.active.generation ∧
            state.reload loaded now = (false, ⟨state.active, false⟩) ∨
          state.active.generation < candidate.generation ∧
            state.reload loaded now = (true, ⟨candidate, false⟩)) := by
  cases loaded with
  | none => exact .inl ⟨by simp [Fails], rfl⟩
  | some candidate =>
    simp only [Fails, Option.some.injEq, forall_eq', reload, publish]
    -- the time is checked before the generation
    by_cases hTime : candidate.validity.notBefore ≤ now ∧ now < candidate.validity.notAfter
    · have hOk : validateCandidateTime candidate.validity now = .ok () := by
        rw [validateCandidateTime, if_neg (by omega), if_neg (by omega)]
      rw [hOk]
      dsimp only
      split_ifs with hStale hSame hDigest
      · exact .inl ⟨.inr (.inl hStale), rfl⟩
      · exact .inr ⟨by simp [hTime, hStale, hDigest], _, rfl, .inl ⟨hSame, rfl⟩⟩
      · exact .inl ⟨.inr (.inr ⟨hSame, hDigest⟩), rfl⟩
      · exact .inr ⟨by simp [hTime, hStale, hSame], _, rfl, .inr ⟨by omega, rfl⟩⟩
    · have hError : ∃ error, validateCandidateTime candidate.validity now = .error error := by
        unfold validateCandidateTime
        split_ifs
        exacts [⟨_, rfl⟩, ⟨_, rfl⟩, absurd hTime (by omega)]
      obtain ⟨_, hError⟩ := hError
      rw [hError]
      exact .inl ⟨.inl hTime, rfl⟩

end ReloadState

/-- What one poll finds: the candidate, if it could be loaded and built, and the clock when it
is published and when the status is taken. -/
structure TlsPoll (τ : Type) where
  loaded : Option (TlsCandidate τ)
  publishedAt : Int
  statusAt : Int

/-- The runtime, with the candidates it accepted, newest first. `ended` is the generation of
`ActiveCredentialsExpired`. -/
structure TlsRuntime (τ : Type) where
  state : ReloadState τ
  accepted : List (TlsCandidate τ)
  ended : Option Nat

namespace TlsRuntime

def start (first : TlsCandidate τ) : TlsRuntime τ := ⟨⟨first, false⟩, [first], none⟩

/-- One turn of the loop of `run_until_shutdown`. -/
def poll (expiryWarning : Nat) (s : TlsRuntime τ) (p : TlsPoll τ) : TlsRuntime τ :=
  if s.ended.isSome then s
  else
    let (applied, state) := s.state.reload p.loaded p.publishedAt
    { state
      accepted := if applied then state.active :: s.accepted else s.accepted
      ended := if state.health p.statusAt expiryWarning = .expired then some state.active.generation
        else none }

def run (expiryWarning : Nat) (s : TlsRuntime τ) (polls : List (TlsPoll τ)) : TlsRuntime τ :=
  polls.foldl (poll expiryWarning) s

/-- The configuration in use is the newest one that was accepted. -/
def Sound (s : TlsRuntime τ) : Prop :=
  ∃ older, s.accepted = s.state.active :: older ∧
    Growing TlsCandidate.generation (s.state.active :: older)

variable {expiryWarning : Nat} {s : TlsRuntime τ} {p : TlsPoll τ}

theorem poll_of_ended (h : s.ended ≠ none) : s.poll expiryWarning p = s :=
  if_pos (Option.isSome_iff_ne_none.mpr h)

theorem poll_of_running (hRunning : s.ended = none) {applied : Bool} {state : ReloadState τ}
    (hReload : s.state.reload p.loaded p.publishedAt = (applied, state)) :
    s.poll expiryWarning p = ⟨state, if applied then state.active :: s.accepted else s.accepted,
      if state.active.validity.notAfter ≤ p.statusAt then some state.active.generation
      else none⟩ := by
  have hHealth : state.health p.statusAt expiryWarning = .expired ↔
      state.active.validity.notAfter ≤ p.statusAt := by
    unfold ReloadState.health
    split_ifs with h <;> simp [h]
  simp [poll, hRunning, hReload, hHealth]

theorem Sound.poll (h : s.Sound) (expiryWarning : Nat) (p : TlsPoll τ) :
    (s.poll expiryWarning p).Sound ∧
      s.state.active.generation ≤ (s.poll expiryWarning p).state.active.generation := by
  -- a runtime that has ended stays as it is
  by_cases hRunning : s.ended = none
  · rcases s.state.reload_cases p.loaded p.publishedAt with
      ⟨-, hReload⟩ | ⟨-, _, -, ⟨-, hReload⟩ | ⟨hNewer, hReload⟩⟩ <;>
      rw [poll_of_running hRunning hReload]
    · exact ⟨h, le_rfl⟩
    · exact ⟨h, le_rfl⟩
    · obtain ⟨_, hAccepted, hGrowing⟩ := h
      exact ⟨⟨_, rfl, hAccepted ▸ hGrowing.cons hNewer⟩, hNewer.le⟩
  · rw [poll_of_ended hRunning]
    exact ⟨h, le_rfl⟩

theorem Sound.run (h : s.Sound) (polls : List (TlsPoll τ)) :
    (s.run expiryWarning polls).Sound ∧
      s.state.active.generation ≤ (s.run expiryWarning polls).state.active.generation := by
  induction polls generalizing s with
  | nil => exact ⟨h, le_rfl⟩
  | cons p _ ih =>
    obtain ⟨hNext, hLe⟩ := h.poll expiryWarning p
    exact ⟨(ih hNext).1, hLe.trans (ih hNext).2⟩

/-- **Reloads of TLS credentials.** After any polls the configuration in use is the one of the
highest generation accepted so far, and later polls never lower the generation. A poll of a
runtime that has not ended fails for every candidate that is outside its validity, older, or
another one of the same generation, and a poll that fails changes neither configuration nor
generation. A poll that does not fail has loaded a candidate: a newer one is accepted and is
the configuration in use from then on, and one of the same generation changes nothing. The
flag is up after a poll if and only if it failed; and the runtime ends with a poll if and only
if the clock at its end is at or past the expiry of the configuration then in use. A runtime
that has ended polls no more. -/
theorem tls_reloads (expiryWarning : Nat) (first : TlsCandidate τ) (polls : List (TlsPoll τ)) :
    let s := (start first).run expiryWarning polls
    (s.state.active ∈ s.accepted ∧
        (∀ other ∈ s.accepted, other.generation ≤ s.state.active.generation) ∧
        ∀ more, s.state.active.generation ≤ (s.run expiryWarning more).state.active.generation) ∧
      (s.ended ≠ none → ∀ p, s.poll expiryWarning p = s) ∧
      (s.ended = none → ∀ p,
        let s' := s.poll expiryWarning p
        let fails := s.state.Fails p.loaded p.publishedAt
        (fails → s'.state.active = s.state.active ∧ s'.accepted = s.accepted) ∧
        (¬fails → ∃ candidate, p.loaded = some candidate ∧
          if s.state.active.generation < candidate.generation
          then s'.state.active = candidate ∧ s'.accepted = candidate :: s.accepted
          else s'.state.active = s.state.active ∧ s'.accepted = s.accepted) ∧
        (s'.state.reloadFailed = true ↔ fails) ∧
        s'.ended = if s'.state.active.validity.notAfter ≤ p.statusAt
          then some s'.state.active.generation else none) := by
  intro s
  have hStart : (start first).Sound := ⟨[], rfl, Growing.singleton first⟩
  have hSound : s.Sound := (hStart.run polls).1
  refine ⟨⟨?_, ?_, fun more => (hSound.run more).2⟩, fun hEnded p => poll_of_ended hEnded, ?_⟩
  · obtain ⟨_, hAccepted, -⟩ := hSound
    exact hAccepted ▸ List.mem_cons_self
  · obtain ⟨_, hAccepted, hGrowing⟩ := hSound
    exact fun other hOther => hGrowing.mem_le_head (hAccepted ▸ hOther)
  · intro hRunning p
    rcases s.state.reload_cases p.loaded p.publishedAt with
      ⟨hFails, hReload⟩ | ⟨hTakes, candidate, hLoaded, ⟨hSame, hReload⟩ | ⟨hNewer, hReload⟩⟩ <;>
      rw [poll_of_running hRunning hReload]
    · exact ⟨fun _ => ⟨rfl, rfl⟩, fun hTakes => absurd hFails hTakes, by simp [hFails], rfl⟩
    · refine ⟨fun hFails => absurd hFails hTakes, fun _ => ⟨candidate, hLoaded, ?_⟩,
        by simp [hTakes], rfl⟩
      rw [if_neg (by omega)]
      exact ⟨rfl, rfl⟩
    · refine ⟨fun hFails => absurd hFails hTakes, fun _ => ⟨candidate, hLoaded, ?_⟩,
        by simp [hTakes], rfl⟩
      rw [if_pos hNewer]
      exact ⟨rfl, rfl⟩

end TlsRuntime

end TunnelProxy.Common
