import TunnelProxy.Agent.Journal
import TunnelProxy.Common.TlsReload

/-!
# The renewal loop of an Agent

`AgentEnrollmentRuntime::run_until_shutdown` looks at the health of the TLS configuration that
`TlsReloadRuntime` keeps, and starts a rotation. The two runtimes interleave in any way, and
the rotation itself is only its result.

* `attempted_run` — the flag of the configuration says whether the last reload failed
* `rotation_starts` — when a tick in the renewal window starts a rotation
-/

namespace TunnelProxy.Agent

open Common Transition

def AgentEnrollmentError.isTerminal : AgentEnrollmentError → Bool
  | .connectTimeout | .connect | .handshakeTimeout | .requestTimeout | .activationTimeout
  | .rejected .internal | .rejected .requestExpired => false
  | _ => true

/-- Both runtimes. `last` is the last reload that was tried: the configuration that it found,
and what it loaded. `ended` is the result of the renewal loop. -/
structure RenewalLoop (τ : Type) where
  tls : TlsRuntime τ
  last : Option (ReloadState τ × TlsPoll τ)
  rotating : Bool
  ended : Option AgentEnrollmentError

inductive RenewalEvent (τ : Type) where
  | reload (poll : TlsPoll τ)
  /-- The interval ticks; whether `pending_path` exists, and the clock. -/
  | tick (pending : Bool) (now : Int)
  /-- `rotate_once` returns. -/
  | rotated (result : Except AgentEnrollmentError Nat)

namespace RenewalLoop

variable {τ : Type}

def start (first : TlsCandidate τ) : RenewalLoop τ := ⟨.start first, none, false, none⟩

/-- One event; `none` when it cannot happen now. -/
def step (expiryWarning renewBefore : Nat) (s : RenewalLoop τ) :
    RenewalEvent τ → Option (RenewalLoop τ)
  | .reload poll =>
    if s.tls.ended.isSome then none
    else some { s with tls := s.tls.poll expiryWarning poll, last := some (s.tls.state, poll) }
  | .tick pending now =>
    if s.rotating ∨ s.ended.isSome then none
    else
      some { s with rotating := pending || s.tls.state.health now renewBefore = .expiring }
  | .rotated result =>
    if s.rotating then
      some { s with
        rotating := false
        ended := match result with
          | .error error => if error.isTerminal then some error else none
          | .ok _ => none }
    else none

/-- The last reload that was tried failed. -/
def LastFailed (s : RenewalLoop τ) : Prop :=
  ∃ state poll, s.last = some (state, poll) ∧ state.Fails poll.loaded poll.publishedAt

variable {expiryWarning renewBefore : Nat} {s s' : RenewalLoop τ} {first : TlsCandidate τ}

theorem attempted_step {event : RenewalEvent τ}
    (h : s.tls.state.reloadFailed = true ↔ s.LastFailed)
    (hStep : s.step expiryWarning renewBefore event = some s') :
    s'.tls.state.reloadFailed = true ↔ s'.LastFailed := by
  cases event with
  | reload poll =>
    simp only [step] at hStep
    split_ifs at hStep with hEnded
    cases hStep
    have hRunning : s.tls.ended = none := by simpa using hEnded
    show (s.tls.poll expiryWarning poll).state.reloadFailed = true ↔ _
    -- the flag is up after the reload exactly when it failed
    rcases s.tls.state.reload_cases poll.loaded poll.publishedAt with
      ⟨hFails, hReload⟩ | ⟨hTakes, _, -, ⟨-, hReload⟩ | ⟨-, hReload⟩⟩ <;>
      rw [TlsRuntime.poll_of_running hRunning hReload]
    · exact ⟨fun _ => ⟨_, _, rfl, hFails⟩, fun _ => rfl⟩
    all_goals
      refine ⟨nofun, ?_⟩
      rintro ⟨_, _, ⟨⟩, hFails⟩
      exact absurd hFails hTakes
  | tick | rotated =>
    simp only [step] at hStep
    split_ifs at hStep
    cases hStep
    exact h

theorem attempted_run {events : List (RenewalEvent τ)}
    (hRun : exec (step expiryWarning renewBefore) (start first) events = some s) :
    s.tls.state.reloadFailed = true ↔ s.LastFailed :=
  exec_induction (P := fun s => s.tls.state.reloadFailed = true ↔ s.LastFailed)
    (fun _ _ _ h hStep => attempted_step h hStep)
    ⟨nofun, by rintro ⟨_, _, ⟨⟩, -⟩⟩ hRun

/-- **When a rotation starts.** After any events, a tick of the loop at which the certificate
in use has not expired but is within `renew_before` of its end starts a rotation if a journal
is pending or the last reload of TLS credentials did not fail, and otherwise it does not. -/
theorem rotation_starts {events : List (RenewalEvent τ)} {pending : Bool} {now : Int}
    (hRun : exec (step expiryWarning renewBefore) (start first) events = some s)
    (hTick : s.step expiryWarning renewBefore (.tick pending now) = some s')
    (hLive : now < s.tls.state.active.validity.notAfter)
    (hDue : s.tls.state.active.validity.notAfter - now ≤ renewBefore) :
    s'.rotating = true ↔ pending = true ∨ ¬s.LastFailed := by
  rw [← attempted_run hRun]
  simp only [step] at hTick
  split_ifs at hTick
  cases hTick
  -- `ReloadFailed` comes before `Expiring` in the health
  have hHealth : s.tls.state.health now renewBefore =
      if s.tls.state.reloadFailed then .reloadFailed else .expiring := by
    rw [ReloadState.health, if_neg (by omega), if_pos hDue]
  cases hFlag : s.tls.state.reloadFailed <;> simp [hHealth, hFlag]

/-- Valid from 0 to 100. -/
def example100 : TlsCandidate Unit := ⟨1, ⟨List.replicate 32 0, rfl⟩, (), ⟨0, 100⟩⟩

/-- The files cannot be loaded at 50; at 60 they hold a second generation. -/
def reloads : List (RenewalEvent Unit) :=
  [.reload ⟨none, 50, 50⟩, .reload ⟨some { example100 with generation := 2 }, 60, 60⟩]

theorem rotation_starts_at_95 : ∃ s s', exec (step 10 10) (start example100) reloads = some s ∧
    s.tls.state.active.generation = 2 ∧ s.step 10 10 (.tick false 95) = some s' ∧
    s'.rotating = true := by
  have hRun : exec (step 10 10) (start example100) reloads = some _ := rfl
  refine ⟨_, _, hRun, rfl, rfl, (rotation_starts hRun rfl (by decide) (by decide)).mpr (.inr ?_)⟩
  rintro ⟨_, _, ⟨⟩, hFails⟩
  exact absurd (hFails _ rfl) (by decide)

/-- After a reload that could not load the files, the tick at 95 starts no rotation. -/
theorem no_rotation_after_failed_reload : ∃ s s',
    exec (step 10 10) (start example100) [.reload ⟨none, 50, 50⟩] = some s ∧
      s.step 10 10 (.tick false 95) = some s' ∧ 95 < s.tls.state.active.validity.notAfter ∧
      s.tls.state.active.validity.notAfter - 95 ≤ 10 ∧ s'.rotating = false :=
  ⟨_, _, rfl, rfl, by decide, by decide, rfl⟩

end RenewalLoop

end TunnelProxy.Agent
