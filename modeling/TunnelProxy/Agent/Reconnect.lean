import TunnelProxy.Common.Identity
import TunnelProxy.Protocol.Frame

/-!
# The reconnect loop of an Agent

`AgentRuntime::run_until_shutdown` connects one session after another. A failure that a new
attempt may help against is counted, and the count starts again when a session ends that had
lasted long enough. One pass of the loop is given by how it went; telemetry and the waits
between the passes are left out.

* `streak` — the failures in a row, read off the passes and not off the counter
* `Counted.attempt_eq` — one pass; `counted_run` — any passes
* `reconnect_ends` — when the loop returns, and with what
-/

namespace TunnelProxy.Agent

open Protocol Common

inductive HandshakeErrorCode where
  | unexpectedFrame
  | invalidHello
  | invalidRegister
  | protocolViolation
  | unauthorizedAgent
  | unauthorizedTunnel
  | tunnelDisabled
  | tunnelAlreadyConnected
deriving DecidableEq

/-- The errors, with the parts that `is_retryable` looks at. -/
inductive AgentError where
  | connect
  | plaintextRemoteEdge
  | connectTimeout
  | handshakeTimeout
  | tlsHandshakeTimeout
  | tlsTransport
  | tlsAuthentication
  | protocolViolation
  | protocolDecode (error : ProtocolError)
  | unexpectedFrame
  | invalidRegisteredPayload
  | registrationRejected (code : Option HandshakeErrorCode)
  | sessionIo
  | connectionClosed
  | invalidHeartbeatPayload
  | heartbeatRejected
deriving DecidableEq

def isRetryable : AgentError → Bool
  | .connect | .connectTimeout | .tlsHandshakeTimeout | .tlsTransport | .handshakeTimeout
  | .sessionIo | .connectionClosed => true
  | .protocolDecode .io | .protocolDecode (.truncatedHeader _)
  | .protocolDecode (.truncatedPayload _ _) => true
  | .registrationRejected (some .tunnelAlreadyConnected) => true
  | _ => false

/-- A configuration that `validate` accepts, with the fields that the loop reads. -/
structure ReconnectConfig where
  stableSessionResetAfter : Nat
  maxAttempts : Option Nat
  max_pos : maxAttempts ≠ some 0
  max_lt : ∀ m, maxAttempts = some m → m < 2 ^ 32

structure AgentRuntimeOutcome where
  connectionAttempts : Nat
  establishedSessions : Nat
  successfulReconnects : Nat
  lastSessionId : Option Nat

inductive AgentRuntimeError where
  | terminal (error : AgentError)
  | reconnectExhausted (consecutiveFailures : Nat) (lastError : AgentError)

inductive AgentSessionCloseReason where
  | localShutdown
  | peerClosed

/-- How one pass of the loop goes. -/
inductive Attempt where
  | failed (reason : AgentError)
  | session (sessionId elapsed : Nat) (result : Except AgentError AgentSessionCloseReason)
  /-- The signal is seen while the Agent connects, or before, in the wait after the last pass. -/
  | cancelled (connecting : Bool)

/-- The loop, at its top or after its `return`. -/
inductive ReconnectLoop where
  | running (outcome : AgentRuntimeOutcome) (consecutiveFailures : Nat)
  | returned (result : Except AgentRuntimeError AgentRuntimeOutcome)

namespace ReconnectLoop

def saturatingAdd (width n : Nat) : Nat := min (n + 1) (2 ^ width - 1)

def start : ReconnectLoop := .running ⟨0, 0, 0, none⟩ 0

def retryExhausted (config : ReconnectConfig) (consecutiveFailures : Nat) : Bool :=
  config.maxAttempts.any (· ≤ consecutiveFailures)

/-- What follows a failure, the same for a failed connect and for the end of a session. -/
def retry (config : ReconnectConfig) (outcome : AgentRuntimeOutcome) (failures : Nat)
    (reason : AgentError) : ReconnectLoop :=
  if isRetryable reason then
    let consecutiveFailures := saturatingAdd 32 failures
    if retryExhausted config consecutiveFailures then
      .returned (.error (.reconnectExhausted consecutiveFailures reason))
    else .running outcome consecutiveFailures
  else .returned (.error (.terminal reason))

def established (outcome : AgentRuntimeOutcome) (sessionId : Nat) : AgentRuntimeOutcome :=
  let sessions := saturatingAdd 64 outcome.establishedSessions
  { outcome with
    establishedSessions := sessions
    successfulReconnects := if 1 < sessions then saturatingAdd 64 outcome.successfulReconnects
      else outcome.successfulReconnects
    lastSessionId := some sessionId }

/-- One pass. -/
def attempt (config : ReconnectConfig) : ReconnectLoop → Attempt → ReconnectLoop
  | .returned result, _ => .returned result
  | .running outcome failures, a =>
    let tried := { outcome with
      connectionAttempts := saturatingAdd 64 outcome.connectionAttempts }
    match a with
    | .cancelled connecting => .returned (.ok (if connecting then tried else outcome))
    | .failed reason => retry config tried failures reason
    | .session sessionId elapsed result =>
      let outcome := established tried sessionId
      -- the counter is reset for a retryable error and for the end by the peer alone
      let failures := if config.stableSessionResetAfter ≤ elapsed then 0 else failures
      match result with
      | .ok .localShutdown => .returned (.ok outcome)
      | .ok .peerClosed => retry config outcome failures .connectionClosed
      | .error error => retry config outcome failures error

def run (config : ReconnectConfig) (attempts : List Attempt) : ReconnectLoop :=
  attempts.foldl (attempt config) start

def isRunning : ReconnectLoop → Bool
  | .running _ _ => true
  | .returned _ => false

end ReconnectLoop

namespace Attempt

/-- The failure that the pass ends with. -/
def failure? : Attempt → Option AgentError
  | .failed reason => some reason
  | .session _ _ (.ok .peerClosed) => some .connectionClosed
  | .session _ _ (.error error) => some error
  | .session _ _ (.ok .localShutdown) | .cancelled _ => none

/-- The end of a session that lasted long enough. -/
def stable (config : ReconnectConfig) : Attempt → Bool
  | .session _ elapsed _ => config.stableSessionResetAfter ≤ elapsed
  | _ => false

end Attempt

/-- The passes since the start, or since the last end of a stable session, that one included. -/
def streak (config : ReconnectConfig) (attempts : List Attempt) : Nat :=
  min ((attempts.reverse.takeWhile fun a => !a.stable config).length + 1) attempts.length

variable {config : ReconnectConfig} {attempts : List Attempt} {failures : Nat}

theorem streak_concat (a : Attempt) : streak config (attempts ++ [a]) =
    if a.stable config then 1 else streak config attempts + 1 := by
  unfold streak
  rw [List.reverse_append, List.length_append, List.length_singleton]
  cases hStable : a.stable config with
  | true => simp [hStable]
  | false =>
    simp only [List.reverse_singleton, List.singleton_append, List.takeWhile_cons, hStable]
    simp

/-- Of a loop that runs after `attempts`: the counter is the streak, as far as it goes, and
the streak is below the maximum. -/
structure Counted (config : ReconnectConfig) (attempts : List Attempt) (failures : Nat) :
    Prop where
  counter : failures = min (streak config attempts) (2 ^ 32 - 1)
  within : ∀ m, config.maxAttempts = some m → streak config attempts < m
  retryable : ∀ a ∈ attempts, ∃ error, a.failure? = some error ∧ isRetryable error = true

open ReconnectLoop

/-- **A pass that fails**, in terms of the streak alone. -/
theorem Counted.attempt_eq (h : Counted config attempts failures) {a : Attempt}
    {reason : AgentError} (hFailure : a.failure? = some reason) (outcome : AgentRuntimeOutcome) :
    let streak := streak config (attempts ++ [a])
    (∀ m, config.maxAttempts = some m → streak ≤ m) ∧
      ∃ next, attempt config (.running outcome failures) a =
        if isRetryable reason then
          if config.maxAttempts = some streak then
            .returned (.error (.reconnectExhausted streak reason))
          else .running next (min streak (2 ^ 32 - 1))
        else .returned (.error (.terminal reason)) := by
  intro streak
  have hStreak : streak = _ := streak_concat a
  have hCounter := h.counter
  have hLe : ∀ m, config.maxAttempts = some m → streak ≤ m := by
    intro m hMax
    have hPos : m ≠ 0 := fun hZero => config.max_pos (hZero ▸ hMax)
    have hWithin := h.within m hMax
    split_ifs at hStreak <;> omega
  have hCount : saturatingAdd 32 (if a.stable config then 0 else failures) =
      min streak (2 ^ 32 - 1) := by
    unfold saturatingAdd
    split_ifs at hStreak ⊢ <;> omega
  have hRetry : ∃ next, attempt config (.running outcome failures) a =
      retry config next (if a.stable config then 0 else failures) reason := by
    cases a with
    | cancelled => cases hFailure
    | failed =>
      cases hFailure
      exact ⟨_, rfl⟩
    | session _ _ result =>
      rcases result with _ | _ | _ <;> cases hFailure
      all_goals exact ⟨_, by simp only [attempt, Attempt.stable, decide_eq_true_eq]; rfl⟩
  obtain ⟨next, hRetry⟩ := hRetry
  refine ⟨hLe, next, ?_⟩
  rw [hRetry, retry, hCount]
  -- the maximum is a `u32`, so that the saturated counter reaches it with the streak
  cases hMax : config.maxAttempts with
  | none => simp [retryExhausted, hMax]
  | some m =>
    have hBelow := hLe m hMax
    have hLt := config.max_lt m hMax
    by_cases hLast : m = streak
    · have hEq : min streak (2 ^ 32 - 1) = streak := by omega
      simp only [retryExhausted, hMax, Option.any_some, hEq, hLast, le_refl, decide_true, if_true]
    · have hNot : ¬m ≤ min streak (2 ^ 32 - 1) := by omega
      simp only [retryExhausted, hMax, Option.any_some, hNot, decide_false, Option.some.injEq,
        hLast, if_false, Bool.false_eq_true]

theorem run_concat (a : Attempt) :
    run config (attempts ++ [a]) = attempt config (run config attempts) a := by
  simp [run]

theorem attempt_of_none (config : ReconnectConfig) (outcome : AgentRuntimeOutcome)
    (failures : Nat) {a : Attempt} (hFailure : a.failure? = none) :
    ∃ final, attempt config (.running outcome failures) a = .returned (.ok final) := by
  cases a with
  | cancelled => exact ⟨_, rfl⟩
  | failed => cases hFailure
  | session _ _ result => rcases result with _ | _ | _ <;> first | exact ⟨_, rfl⟩ | cases hFailure

theorem counted_run {outcome : AgentRuntimeOutcome}
    (h : run config attempts = .running outcome failures) : Counted config attempts failures := by
  induction attempts using List.reverseRecOn generalizing outcome failures with
  | nil =>
    cases h
    refine ⟨rfl, fun m hm => ?_, by simp⟩
    exact Nat.pos_of_ne_zero fun hZero => config.max_pos (hZero ▸ hm)
  | append_singleton before a ih =>
    rw [run_concat] at h
    cases hBefore : run config before with
    | returned =>
      rw [hBefore] at h
      cases h
    | running last =>
      have hCounted := ih hBefore
      rw [hBefore] at h
      cases hFailure : a.failure? with
      | none =>
        obtain ⟨_, hNext⟩ := attempt_of_none config last _ hFailure
        cases hNext.symm.trans h
      | some reason =>
        obtain ⟨hLe, _, hNext⟩ := hCounted.attempt_eq hFailure last
        rw [hNext] at h
        split_ifs at h with hRetryable hLast
        cases h
        refine ⟨rfl, fun m hm => (hLe m hm).lt_of_ne fun hEq => hLast (hEq ▸ hm), ?_⟩
        simp only [List.mem_append, List.mem_singleton]
        rintro b (hb | rfl)
        · exact hCounted.retryable b hb
        · exact ⟨reason, hFailure, hRetryable⟩

/-- **When the reconnect loop returns.** Of a loop that runs after any passes, all were
retryable failures. The next pass returns `Terminal` if and only if it fails and the error is
not retryable; it returns `ReconnectExhausted` if and only if it is a retryable failure that
makes the streak the maximum, which is then the number reported; and after any other retryable
failure the loop goes on, so that without a maximum it always does. -/
theorem reconnect_ends (config : ReconnectConfig) (before : List Attempt) (a : Attempt)
    (hRunning : (run config before).isRunning = true) :
    let next := run config (before ++ [a])
    let failures := streak config (before ++ [a])
    (∀ b ∈ before, ∃ error, b.failure? = some error ∧ isRetryable error = true) ∧
      (∀ error, next = .returned (.error (.terminal error)) ↔
        a.failure? = some error ∧ isRetryable error = false) ∧
      (∀ n error, next = .returned (.error (.reconnectExhausted n error)) ↔
        a.failure? = some error ∧ isRetryable error = true ∧ config.maxAttempts = some n ∧
          failures = n) ∧
      ∀ error, a.failure? = some error → isRetryable error = true →
        config.maxAttempts ≠ some failures → next.isRunning = true := by
  intro next failures
  cases hBefore : run config before with
  | returned =>
    rw [hBefore] at hRunning
    cases hRunning
  | running outcome counter =>
    have hCounted := counted_run hBefore
    have hStep : next = attempt config (.running outcome counter) a := hBefore ▸ run_concat a
    refine ⟨hCounted.retryable, ?_⟩
    cases hFailure : a.failure? with
    | none =>
      obtain ⟨_, hNext⟩ := attempt_of_none config outcome counter hFailure
      simp [hStep, hNext]
    | some reason =>
      obtain ⟨-, _, hNext⟩ := hCounted.attempt_eq hFailure outcome
      rw [hStep, hNext]
      split_ifs with hRetryable hLast <;> grind [isRunning]

/-- At most two failures in a row. -/
def twoAttempts : ReconnectConfig := ⟨30, some 2, by decide, by simp⟩

theorem reconnect_ends_second :
    run twoAttempts [.session 1 29 (.ok .peerClosed), .failed .connectTimeout] =
      .returned (.error (.reconnectExhausted 2 .connectTimeout)) :=
  ((reconnect_ends twoAttempts [.session 1 29 (.ok .peerClosed)] (.failed .connectTimeout)
    rfl).2.2.1 2 .connectTimeout).mpr ⟨rfl, rfl, rfl, rfl⟩

end TunnelProxy.Agent
