import TunnelProxy.Lib.Transition

/-!
# Readiness of an Agent whose public reachability is monitored

Two tasks share the telemetry of an Agent. The runtime loop reports the state of its connection:
`set_runtime_state` resets the reachability and then exchanges the state, and what it loads
before decides nothing that changes. `announce_managed_http_ready` verifies the public hostname
once and then probes it again and again. A status is one reading of both fields; the counters
that readiness does not depend on are left out.

* `Fresh.run` — what holds as long as the results of the probes come in time
* `ready_after_fresh_probe` — the Agent is ready only after a probe of its present connection
-/

namespace TunnelProxy.Agent

open Transition

inductive AgentConnectionState where
  | offline | connecting | connected | backoff | draining | stopped
  deriving DecidableEq

/-- `set_runtime_state` does not leave these. -/
def AgentConnectionState.final : AgentConnectionState → Bool
  | .draining | .stopped => true
  | _ => false

inductive PublicReachabilityState where
  | disabled | pending | healthy | degraded | unhealthy
  deriving DecidableEq

/-- What `is_ready` asks of the reachability. -/
def PublicReachabilityState.passes : PublicReachabilityState → Bool
  | .pending | .unhealthy => false
  | _ => true

/-- Where `announce_managed_http_ready` is, with the monitor that it ends in. -/
inductive Announcement where
  | polling | verifying | sleeping | probing | ended

/-- The telemetry and the two tasks. `setting` is the state that is about to be exchanged;
`connections` counts how often the state has become `Connected`, `startedIn` is that number when
the last probe was started, and `provedIn` when the last probe that succeeded was. -/
structure MonitoredAgent where
  state : AgentConnectionState
  reachability : PublicReachabilityState
  monitorEnabled : Bool
  consecutiveFailures : Nat
  setting : Option AgentConnectionState
  announcement : Announcement
  connections : Nat
  startedIn : Nat
  provedIn : Option Nat

inductive MonitorEvent where
  | setRuntimeState (state : AgentConnectionState)
  | exchange
  | beginDraining
  /-- The status guard of the runtime is dropped. -/
  | stop
  /-- A probe is started: the first one, one more of the verification, or one of the monitor. -/
  | probe
  | probeSucceeded
  | probeFailed
  | cancelled

namespace MonitoredAgent

/-- After `require_public_reachability(true)`. -/
def start : MonitoredAgent := ⟨.offline, .pending, true, 0, none, .polling, 0, 0, none⟩

def isReady (s : MonitoredAgent) : Bool := s.state = .connected && s.reachability.passes

/-- One event; `none` when it cannot happen now. -/
def step (failureThreshold : Nat) (s : MonitoredAgent) : MonitorEvent → Option MonitoredAgent
  | .setRuntimeState state =>
    -- the loop says `Connected` only after it said `Connecting`
    if s.setting = none ∧ state ∈ [.connecting, .connected, .backoff] ∧
        (state = .connected → s.state = .connecting ∨ s.state.final) then
      some { s with
        setting := some state
        reachability :=
          if state ≠ .connected ∧ s.monitorEnabled ∧ s.reachability ≠ .disabled then .pending
          else s.reachability }
    else none
  | .exchange =>
    match s.setting with
    | none => none
    | some state =>
      if s.state.final then some { s with setting := none }
      else
        some { s with
          state, setting := none
          connections := if state = .connected then s.connections + 1 else s.connections }
  | .beginDraining => some { s with state := .draining }
  | .stop => some { s with state := .stopped }
  | .probe =>
    match s.announcement with
    | .polling =>
      if s.state = .connected then
        some { s with announcement := .verifying, startedIn := s.connections }
      else none
    | .verifying => some { s with startedIn := s.connections }
    | .sleeping => some { s with announcement := .probing, startedIn := s.connections }
    | .probing | .ended => none
  | .probeSucceeded =>
    match s.announcement with
    | .verifying | .probing =>
      some { s with
        announcement := .sleeping, reachability := .healthy, consecutiveFailures := 0
        provedIn := some s.startedIn }
    | _ => none
  | .probeFailed =>
    match s.announcement with
    -- the verification has timed out, and leaves the reachability as it is
    | .verifying => some { s with announcement := .ended }
    | .probing =>
      some { s with
        announcement := .sleeping, consecutiveFailures := s.consecutiveFailures + 1
        reachability :=
          if s.consecutiveFailures + 1 ≥ failureThreshold then .unhealthy else .degraded }
    | _ => none
  | .cancelled => some { s with announcement := .ended }

/-- A result after which the reachability passes comes while no state is being set and the
Agent is not connecting. While it is connected, a success is of a probe that was started in
this connection, and a failure of the monitor's comes after such a success. -/
def InTime (failureThreshold : Nat) (s : MonitoredAgent) : MonitorEvent → Prop
  | .probeSucceeded => s.setting = none ∧ s.state ≠ .connecting ∧
      (s.state = .connected → s.startedIn = s.connections)
  | .probeFailed => s.announcement = .probing → s.consecutiveFailures + 1 < failureThreshold →
      s.setting = none ∧ s.state ≠ .connecting ∧
        (s.state = .connected → s.provedIn = some s.connections)
  | _ => True

/-- The reachability passes only for the connection that was proved, and not while another one
is being made. -/
structure Fresh (s : MonitoredAgent) : Prop where
  required : s.monitorEnabled = true ∧ s.reachability ≠ .disabled
  proved : s.reachability.passes → s.state ≠ .connecting ∧
    (s.state = .connected → s.provedIn = some s.connections)
  reset : ∀ state, s.setting = some state → s.reachability.passes → state = .connected
  connecting : s.setting = some .connected → s.state = .connecting ∨ s.state.final

variable {failureThreshold : Nat} {s s' : MonitoredAgent}

theorem Fresh.exchange (h : s.Fresh) (hStep : s.step failureThreshold .exchange = some s') :
    s'.Fresh := by
  simp only [step] at hStep
  split at hStep
  · cases hStep
  · rename_i state hSetting
    split_ifs at hStep with hFinal hNew <;> cases hStep
    · exact ⟨h.required, h.proved, by simp, by simp⟩
    · -- the state was `Connecting`, where nothing has passed since the reset
      subst hNew
      have hState : s.state = .connecting :=
        (h.connecting hSetting).resolve_right (by simpa using hFinal)
      exact ⟨h.required, fun hPasses => absurd hState (h.proved hPasses).1, by simp, by simp⟩
    · exact ⟨h.required, fun hPasses => absurd (h.reset state hSetting hPasses) hNew, by simp,
        by simp⟩

/-- **One event.** -/
theorem Fresh.step {event : MonitorEvent} (h : s.Fresh) (hTime : s.InTime failureThreshold event)
    (hStep : s.step failureThreshold event = some s') : s'.Fresh := by
  have hMoves : ∀ announcement startedIn,
      { s with announcement, startedIn : MonitoredAgent }.Fresh :=
    fun _ _ => { h with }
  cases event with
  | exchange => exact h.exchange hStep
  | setRuntimeState state =>
    simp only [MonitoredAgent.step] at hStep
    split_ifs at hStep with hSets hResets <;> cases hStep
    · exact ⟨⟨h.required.1, by simp⟩, by simp [PublicReachabilityState.passes],
        by simp [PublicReachabilityState.passes],
        fun hState => absurd (Option.some.inj hState) hResets.1⟩
    · -- with the monitor on, only `Connected` leaves the reachability as it is
      have hState : state = .connected := by simpa [h.required] using hResets
      exact ⟨h.required, h.proved, fun _ hSome _ => (Option.some.inj hSome).symm.trans hState,
        fun _ => hSets.2.2 hState⟩
  | beginDraining | stop =>
    cases hStep
    exact ⟨h.required, by simp, h.reset, fun _ => .inr rfl⟩
  | cancelled =>
    cases hStep
    exact hMoves _ _
  | probe =>
    simp only [MonitoredAgent.step] at hStep
    repeat' split at hStep
    all_goals first
      | (cases hStep; exact hMoves _ _)
      | cases hStep
  | probeSucceeded =>
    obtain ⟨hIdle, hState, hProbe⟩ := hTime
    simp only [MonitoredAgent.step] at hStep
    split at hStep <;> cases hStep
    all_goals
      exact ⟨⟨h.required.1, by simp⟩, fun _ => ⟨hState, fun hUp => congrArg some (hProbe hUp)⟩,
        by simp [hIdle], by simp [hIdle]⟩
  | probeFailed =>
    simp only [MonitoredAgent.step] at hStep
    split at hStep <;> rename_i hProbing <;> cases hStep
    · exact hMoves _ _
    · split_ifs with hBelow
      · exact ⟨⟨h.required.1, by simp⟩, by simp [PublicReachabilityState.passes],
          by simp [PublicReachabilityState.passes], h.connecting⟩
      · obtain ⟨hIdle, hState, hProved⟩ := hTime hProbing (by omega)
        exact ⟨⟨h.required.1, by simp⟩, fun _ => ⟨hState, hProved⟩, by simp [hIdle],
          by simp [hIdle]⟩

section

variable {events : List MonitorEvent}
  (hTime : Guarded (MonitoredAgent.step failureThreshold) (InTime failureThreshold) start events)
  (hRun : exec (MonitoredAgent.step failureThreshold) start events = some s)
include hTime hRun

theorem Fresh.run : s.Fresh :=
  exec_induction_guarded (fun _ _ _ h hTime hStep => h.step hTime hStep)
    ⟨⟨rfl, by decide⟩, by decide, by simp [start], by simp [start]⟩ hTime hRun

/-- **Readiness is of the present connection.** As long as every result comes in time, an Agent
that is ready has had a success of a probe that was started after its last connection, and a
success of an earlier probe does not make it ready. -/
theorem ready_after_fresh_probe :
    (s.isReady → s.provedIn = some s.connections) ∧
      ∀ s', s.step failureThreshold .probeSucceeded = some s' →
        s.InTime failureThreshold .probeSucceeded → s.startedIn < s.connections →
          s'.isReady = false := by
  refine ⟨fun hReady => ?_, fun s' hStep hTime hOld => ?_⟩
  · simp only [isReady, Bool.and_eq_true, decide_eq_true_eq] at hReady
    exact ((Fresh.run hTime hRun).proved hReady.2).2 hReady.1
  · have hDown : s.state ≠ .connected := fun hUp => by
      have hThis := hTime.2.2 hUp
      omega
    simp only [MonitoredAgent.step] at hStep
    split at hStep <;> cases hStep <;> simp [isReady, hDown]

end

def connects : List MonitorEvent :=
  [.setRuntimeState .connecting, .exchange, .setRuntimeState .connected, .exchange]

/-- An Agent that has been ready loses its connection and gets another one. -/
def reconnects (before after : List MonitorEvent) : List MonitorEvent :=
  connects ++ [.probe, .probeSucceeded] ++ before ++ [.setRuntimeState .backoff, .exchange] ++
    connects ++ after

theorem ready_after_second_probe : ∃ s,
    exec (step 3) start (reconnects [] [.probe, .probeSucceeded]) = some s ∧
      s.isReady ∧ s.provedIn = some s.connections := by
  have hTime : Guarded (step 3) (InTime 3) start (reconnects [] [.probe, .probeSucceeded]) := by
    simp [Guarded, InTime, reconnects, connects, step, start, AgentConnectionState.final]
  exact ⟨_, rfl, rfl, (ready_after_fresh_probe hTime rfl).1 rfl⟩

/-- A probe of the first connection that succeeds in the second makes the Agent ready there, and
so does a probe that fails. -/
theorem ready_without_fresh_probe : ∃ s s',
    exec (step 3) start (reconnects [.probe] [.probeSucceeded]) = some s ∧
      s.isReady ∧ s.connections = 2 ∧ s.provedIn = some 1 ∧
      exec (step 3) start (reconnects [] [.probe, .probeFailed]) = some s' ∧
      s'.isReady ∧ s'.connections = 2 ∧ s'.provedIn = some 1 :=
  ⟨_, _, rfl, rfl, rfl, rfl, rfl, rfl, rfl, rfl⟩

end MonitoredAgent

end TunnelProxy.Agent
