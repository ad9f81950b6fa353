import TunnelProxy.Control.DistributionSafety

/-!
# When the client gives up

`stale_remaining` counts from `authenticated_at`, the time of the last store, and not from
the time the stream failed. A stream that was quiet for longer than `max_stale_age` has no
time left when it fails: the client ends at once (`quiet_stream_expires_early`). When the
stream fails at the time of the last store, the client ends when `max_stale_age` has passed
since the failure, not before and not after (`expires_after_failure`).
-/

namespace TunnelProxy.Control

open Common Transition Option

/-- The steps of the Edge. -/
def DistributionAction.ofClient : DistributionAction → Bool
  | .publish _ | .respond | .changed | .send | .hangUp | .restart | .clock _ => false
  | _ => true

namespace Distribution

variable {sha256 : Hash} {config : SnapshotClientConfig} {s s' : Distribution}
  {a : DistributionAction} {delay : Nat} {listed : List (Text × List UInt8)}
  {purpose : StorePurpose} {x : VersionedAuthorizationSnapshot} {message : SnapshotMessage}

/-- A stream fails only while the clock still reads the time of the last store. -/
def prompt (s : Distribution) : DistributionAction → Prop
  | .readFails => s.authenticatedAt = s.now
  | _ => True

instance (s : Distribution) (a : DistributionAction) : Decidable (s.prompt a) := by
  unfold prompt
  split <;> infer_instance

/-- The client is in the loop that tries to reconnect. -/
def retries (s : Distribution) : Bool :=
  match s.phase with
  | .offline _ | .waiting _ _ _ | .retrying _ | .reconnecting _ _ => true
  | _ => false

/-- The client has been answered after a reconnection. -/
def answered (s : Distribution) : Bool :=
  match s.phase with
  | .storing .reconnect _ _ _ | .storing .refresh _ _ _ => true
  | _ => false

/-- The deadline of the wait in progress. -/
def deadline? (s : Distribution) : Option Int :=
  match s.phase with
  | .waiting _ expiresAt _ | .reconnecting _ expiresAt => some expiresAt
  | _ => none

/-- How many times the loop still waits. -/
def waits (s : Distribution) : Nat :=
  match s.phase with
  | .offline _ | .retrying _ => 2
  | .waiting _ _ _ | .reconnecting _ _ => 1
  | _ => 0

/-- The times the client holds. -/
structure Timed (config : SnapshotClientConfig) (s : Distribution) : Prop where
  failed : ∀ d, s.failedAt = some d →
    s.phase = .down ∨ (s.retries ∨ s.answered) ∧ s.authenticatedAt = d
  deadline : ∀ e, s.deadline? = some e → e = s.expiresAt config

section

variable (h : s.Timed config)
include h

theorem Timed.frame (hPhase : s'.phase = s.phase)
    (hFailed : s'.failedAt = s.failedAt) (hTime : s'.authenticatedAt = s.authenticatedAt) :
    s'.Timed config := by
  obtain ⟨failed, deadline⟩ := h
  constructor
  · rw [hFailed, hPhase, hTime, retries, answered, hPhase]
    exact failed
  · rw [deadline?, hPhase, expiresAt, hTime]
    exact deadline

omit h in
theorem Timed.finish (s : Distribution) (result : Except SnapshotClientError Unit) :
    (s.finish result).Timed config where
  failed := fun _ _ => .inl rfl
  deadline := nofun

omit h in
/-- Outside the loop, no failure is remembered. -/
theorem Timed.of_none (hFailed : s.failedAt = none) (hDeadline : s.deadline? = none) :
    s.Timed config where
  failed := fun _ hSome => (by cases hFailed.symm.trans hSome)
  deadline := fun _ hSome => (by cases hDeadline.symm.trans hSome)

theorem Timed.failedAt_eq_none (hDown : s.phase ≠ .down)
    (hRetries : s.retries = false) (hAnswered : s.answered = false) : s.failedAt = none := by
  cases hFailed : s.failedAt with
  | none => rfl
  | some d =>
    rcases h.failed d hFailed with hPhase | ⟨hOr, -⟩
    · exact absurd hPhase hDown
    · rw [hRetries, hAnswered] at hOr
      rcases hOr with hOr | hOr <;> cases hOr

/-- The failure that the loop remembers stays the same while it goes on. -/
theorem Timed.move (hRetries : s.retries) (hNext : s'.retries ∨ s'.answered)
    (hFailed : s'.failedAt = s.failedAt) (hTime : s'.authenticatedAt = s.authenticatedAt)
    (hDeadline : ∀ e, s'.deadline? = some e → e = s.expiresAt config) : s'.Timed config where
  failed := by
    intro d hd
    rw [hFailed] at hd
    rcases h.failed d hd with hDown | ⟨-, hAt⟩
    · rw [retries, hDown] at hRetries
      cases hRetries
    · exact .inr ⟨hNext, hTime.trans hAt⟩
  deadline := by
    intro e he
    rw [expiresAt, hTime]
    exact hDeadline e he

omit h in
theorem beginStore_frame (hStep : s.beginStore sha256 config purpose x delay listed = some s') :
    s'.phase = .storing purpose x s.now delay ∧ s'.failedAt = s.failedAt ∧
      s'.authenticatedAt = s.authenticatedAt := by
  obtain ⟨_, -, rfl⟩ := map_eq_some_iff.mp hStep
  exact ⟨rfl, rfl, rfl⟩

omit h in
/-- A store that is not part of a reconnection. -/
theorem Timed.beginStore (hFailed : s.failedAt = none)
    (hStep : s.beginStore sha256 config purpose x delay listed = some s') : s'.Timed config := by
  obtain ⟨hPhase, hSame, -⟩ := beginStore_frame hStep
  exact Timed.of_none (hSame.trans hFailed) (by rw [deadline?, hPhase])

theorem Timed.beginReconnectStore (hRetries : s.retries)
    (hPurpose : purpose = .reconnect ∨ purpose = .refresh)
    (hStep : s.beginStore sha256 config purpose x delay listed = some s') : s'.Timed config := by
  obtain ⟨hPhase, hFailed, hTime⟩ := beginStore_frame hStep
  refine h.move hRetries (.inr ?_) hFailed hTime (fun e he => ?_)
  · rw [answered, hPhase]
    rcases hPurpose with rfl | rfl <;> rfl
  · rw [deadline?, hPhase] at he
    cases he

theorem Timed.handle (hStep : s.handle sha256 config message listed = some s') :
    s'.Timed config := by
  unfold Distribution.handle at hStep
  split at hStep
  iterate 2
    · rename_i hPhase
      have hFailed : s.failedAt = none := h.failedAt_eq_none (by simp [hPhase])
        (by rw [retries, hPhase]) (by rw [answered, hPhase])
      split at hStep
      · exact Timed.beginStore hFailed hStep
      all_goals
        cases hStep
        exact Timed.finish _ _
  · rename_i hPhase
    have hRetries : s.retries := by rw [retries, hPhase]
    split_ifs at hStep
    split at hStep
    · exact h.beginReconnectStore hRetries (.inl rfl) hStep
    · split at hStep
      · cases hStep
      · split_ifs at hStep
        · cases hStep
          exact Timed.finish _ _
        · exact h.beginReconnectStore hRetries (.inr rfl) hStep
    all_goals
      cases hStep
      exact Timed.finish _ _
  · cases hStep

theorem Timed.stored (hSafe : s.Safe sha256)
    (hStep : s.step sha256 config .stored = some s') :
    s'.Timed config := by
  simp only [step] at hStep
  split at hStep
  · rename_i hPhase
    split at hStep
    · cases hStep
      unfold afterStore
      split
      · have hFailed : s.failedAt = none := h.failedAt_eq_none (by simp [hPhase])
          (by rw [retries, hPhase]) (by rw [answered, hPhase])
        exact Timed.of_none hFailed rfl
      · exact Timed.of_none rfl rfl
      · split
        · rename_i hBootstrap hRefresh _ hNone
          -- a running client has published something
          have hPublished := (hSafe.stores _ _ _ _ hPhase).published
          split at hPublished
          · exact absurd rfl hBootstrap
          · exact absurd rfl hRefresh
          · obtain ⟨_, hSome, -⟩ := hPublished
            cases hNone.symm.trans hSome
        · split
          · exact Timed.finish _ _
          · exact Timed.of_none rfl rfl
    · cases hStep
      exact Timed.finish _ _
    · cases hStep
  · cases hStep

omit h in
/-- The steps that leave the phase and the times of the client as they are. -/
theorem step_frame (ha : match a with
      | .publish _ | .respond | .changed | .send | .hangUp | .restart | .connect | .cache _
      | .clock _ => True
      | _ => False) (hStep : s.step sha256 config a = some s') :
    s'.phase = s.phase ∧ s'.failedAt = s.failedAt ∧ s'.authenticatedAt = s.authenticatedAt := by
  cases a <;> simp only at ha <;> rw [step] at hStep <;> repeat' split at hStep
  all_goals first
    | (obtain ⟨_, _, rfl⟩ := map_eq_some_iff.mp hStep; exact ⟨rfl, rfl, rfl⟩)
    | (cases hStep; exact ⟨rfl, rfl, rfl⟩)
    | cases hStep

theorem Timed.connectFails {error : SnapshotClientError}
    (hStep : s.step sha256 config (.connectFails error listed) = some s') : s'.Timed config := by
  simp only [step] at hStep
  split at hStep
  · cases hStep
  split at hStep
  · rename_i hPhase
    have hFailed : s.failedAt = none := h.failedAt_eq_none (by simp [hPhase])
      (by rw [retries, hPhase]) (by rw [answered, hPhase])
    split_ifs at hStep
    · cases hStep
      exact Timed.finish _ _
    · split at hStep <;> cases hStep
      · exact Timed.finish _ _
      · exact Timed.of_none hFailed rfl
  · rename_i hPhase
    split_ifs at hStep <;> cases hStep
    · exact Timed.finish _ _
    · exact h.move (by rw [retries, hPhase]) (.inl rfl) rfl rfl (fun e he => (by cases he))
  · cases hStep

theorem timed_step (hSafe : s.Safe sha256) (hPrompt : s.prompt a)
    (hStep : s.step sha256 config a = some s') : s'.Timed config := by
  cases a with
  | start =>
    simp only [step] at hStep
    split_ifs at hStep
    cases hStep
    exact Timed.of_none rfl rfl
  | connectFails => exact h.connectFails hStep
  | receive =>
    simp only [step] at hStep
    split at hStep
    · refine Timed.handle ?_ hStep
      exact h.frame rfl rfl rfl
    · cases hStep
  | readFails =>
    simp only [step] at hStep
    split at hStep
    · cases hStep
      -- this is where the time of the last store has to be the time of the failure
      exact
        { failed := by
            rintro _ ⟨⟩
            exact .inr ⟨.inl rfl, hPrompt⟩
          deadline := fun e he => (by cases he) }
    · cases hStep
  | stored => exact h.stored hSafe hStep
  | waitForRetry | reconnect =>
    simp only [step] at hStep
    split at hStep
    · rename_i hPhase
      split_ifs at hStep <;> cases hStep
      · exact Timed.finish _ _
      · refine h.move (by rw [retries, hPhase]) (.inl rfl) rfl rfl ?_
        rintro _ ⟨⟩
        rfl
    · cases hStep
  | elapse =>
    simp only [step] at hStep
    split at hStep
    · rename_i hPhase
      split_ifs at hStep <;> cases hStep
      · exact Timed.finish _ _
      · exact h.move (by rw [retries, hPhase]) (.inl rfl) rfl rfl (fun e he => (by cases he))
    · split_ifs at hStep
      cases hStep
      exact Timed.finish _ _
    · cases hStep
  | shutdown =>
    simp only [step] at hStep
    split at hStep <;> cases hStep <;> exact Timed.finish _ _
  | crash =>
    rw [step] at hStep
    obtain ⟨_, -, rfl⟩ := map_eq_some_iff.mp hStep
    exact ⟨fun _ _ => .inl rfl, fun _ he => (by cases he)⟩
  | _ =>
    obtain ⟨hPhase, hFailed, hTime⟩ := step_frame trivial hStep
    exact h.frame hPhase hFailed hTime

/-! ## Ending -/

omit h in
theorem afterStore_not_expired (hPhase : s.phase ≠ .down) :
    (s.afterStore config x delay purpose).phase = .down →
      (s.afterStore config x delay purpose).ended ≠ some (.error .cacheExpired) := by
  unfold afterStore
  split
  · exact nofun
  · exact nofun
  · split
    · exact fun hDown => absurd hDown hPhase
    · split
      · exact nofun
      · exact nofun

omit h in
/-- The client ends with `CacheExpired` only when a deadline has passed. -/
theorem step_expired (hRunning : s.phase ≠ .down) (hStep : s.step sha256 config a = some s')
    (hDown : s'.phase = .down) (hEnded : s'.ended = some (.error .cacheExpired)) :
    s.expiresAt config < s.now ∨ ∃ e, s.deadline? = some e ∧ e ≤ s.now := by
  cases a with
  | waitForRetry | reconnect =>
    simp only [step] at hStep
    split at hStep
    · split_ifs at hStep with hExpired <;> cases hStep
      · exact .inl hExpired
      · cases hDown
    · cases hStep
  | elapse =>
    simp only [step] at hStep
    split at hStep
    · rename_i expiresAt retryAt hPhase
      split_ifs at hStep with hExpired <;> cases hStep
      · exact .inr ⟨expiresAt, by rw [deadline?, hPhase], hExpired⟩
      · cases hDown
    · rename_i expiresAt hPhase
      split_ifs at hStep with hExpired
      exact .inr ⟨expiresAt, by rw [deadline?, hPhase], hExpired⟩
    · cases hStep
  | receive =>
    simp only [step] at hStep
    split at hStep
    · unfold handle at hStep
      repeat' split at hStep
      all_goals first
        | (rw [(beginStore_frame hStep).1] at hDown; cases hDown)
        | (cases hStep; cases hEnded)
        | cases hStep
    · cases hStep
  | stored =>
    simp only [step] at hStep
    split at hStep
    · rename_i hPhase
      split at hStep <;> cases hStep
      · exact absurd hEnded (afterStore_not_expired (by simp [hPhase]) hDown)
      · cases hEnded
    · cases hStep
  | connectFails error listed =>
    simp only [step] at hStep
    split at hStep
    · cases hStep
    rename_i hConnecting
    have hError : error ≠ .cacheExpired := by
      rintro rfl
      exact hConnecting rfl
    repeat' split at hStep
    all_goals first
      | (cases hStep; cases hEnded; exact absurd rfl hError)
      | (cases hStep; cases hEnded)
      | (cases hStep; cases hDown)
      | cases hStep
  | start =>
    simp only [step] at hStep
    split_ifs at hStep with hPhase
    exact absurd hPhase hRunning
  | readFails =>
    simp only [step] at hStep
    split at hStep <;> cases hStep
    cases hDown
  | shutdown =>
    simp only [step] at hStep
    split at hStep <;> cases hStep <;> cases hEnded
  | crash =>
    rw [step] at hStep
    obtain ⟨_, -, rfl⟩ := map_eq_some_iff.mp hStep
    cases hEnded
  | _ =>
    obtain ⟨hPhase, -⟩ := step_frame trivial hStep
    exact absurd (hPhase.symm.trans hDown) hRunning

/-- Past the deadline the loop has a step to take. -/
theorem exists_step_of_expired (hRetries : s.retries)
    (hExpired : s.expiresAt config ≤ s.now) :
    ∃ a, a.ofClient ∧ (s.step sha256 config a).isSome := by
  unfold retries at hRetries
  split at hRetries <;> rename_i hPhase
  · refine ⟨.waitForRetry, rfl, ?_⟩
    simp only [step, hPhase]
    split_ifs <;> rfl
  · refine ⟨.elapse, rfl, ?_⟩
    have hDeadline := h.deadline _ (by rw [deadline?, hPhase])
    simp only [step, hPhase, hDeadline, if_pos hExpired]
    rfl
  · refine ⟨.reconnect, rfl, ?_⟩
    simp only [step, hPhase]
    split_ifs <;> rfl
  · refine ⟨.elapse, rfl, ?_⟩
    have hDeadline := h.deadline _ (by rw [deadline?, hPhase])
    simp only [step, hPhase, hDeadline, if_pos hExpired]
    rfl
  · cases hRetries

/-- Past the deadline every step of the client ends it, or brings it to its last wait. -/
theorem step_of_expired (hRetries : s.retries)
    (hExpired : s.expiresAt config ≤ s.now) (hClient : a.ofClient)
    (hStep : s.step sha256 config a = some s') :
    s'.phase = .down ∧ (s'.ended = some (.error .cacheExpired) ∨ a = .shutdown ∨ a = .crash) ∨
      s'.retries ∧ s'.failedAt = s.failedAt ∧ s'.waits < s.waits := by
  -- the waits in progress are over
  have hOver : ∀ delay expiresAt, s.phase = .reconnecting delay expiresAt → expiresAt ≤ s.now := by
    intro _ expiresAt hPhase
    rw [h.deadline expiresAt (by rw [deadline?, hPhase])]
    exact hExpired
  have hPhases : s.phase ≠ .down ∧ s.phase ≠ .bootstrapping ∧ (∀ d, s.phase ≠ .streaming d) ∧
      ∀ p x t d, s.phase ≠ .storing p x t d := by
    unfold retries at hRetries
    split at hRetries <;> simp_all
  cases a with
  | waitForRetry | reconnect =>
    simp only [step] at hStep
    split at hStep
    · rename_i hPhase
      split_ifs at hStep <;> cases hStep
      · exact .inl ⟨rfl, .inl rfl⟩
      · refine .inr ⟨rfl, rfl, ?_⟩
        rw [waits, waits, hPhase]
        exact Nat.one_lt_two
    · cases hStep
  | elapse =>
    simp only [step] at hStep
    split at hStep
    · rename_i expiresAt retryAt hPhase
      have hDeadline := h.deadline expiresAt (by rw [deadline?, hPhase])
      rw [hDeadline, if_pos hExpired] at hStep
      cases hStep
      exact .inl ⟨rfl, .inl rfl⟩
    · rename_i delay expiresAt hPhase
      rw [if_pos (hOver delay expiresAt hPhase)] at hStep
      cases hStep
      exact .inl ⟨rfl, .inl rfl⟩
    · cases hStep
  | connect | connectFails error listed =>
    simp only [step] at hStep
    split at hStep
    · cases hStep
    split at hStep
    · rename_i hPhase
      exact absurd hPhase hPhases.2.1
    · rename_i hPhase
      -- the `select!` is biased: the deadline comes before the connection
      rw [if_pos (hOver _ _ hPhase)] at hStep
      cases hStep
    · cases hStep
  | receive listed =>
    simp only [step, handle] at hStep
    split at hStep
    · split at hStep
      · rename_i hPhase
        exact absurd hPhase hPhases.2.1
      · rename_i hPhase
        exact absurd hPhase (hPhases.2.2.1 _)
      · rename_i hPhase
        rw [if_pos (hOver _ _ hPhase)] at hStep
        cases hStep
      · cases hStep
    · cases hStep
  | shutdown =>
    simp only [step] at hStep
    split at hStep <;> cases hStep <;> exact .inl ⟨rfl, .inr (.inl rfl)⟩
  | crash =>
    rw [step] at hStep
    obtain ⟨_, -, rfl⟩ := map_eq_some_iff.mp hStep
    exact .inl ⟨rfl, .inr (.inr rfl)⟩
  | start =>
    simp only [step, if_neg hPhases.1] at hStep
    cases hStep
  | readFails =>
    simp only [step] at hStep
    split at hStep
    · rename_i hPhase
      exact absurd hPhase (hPhases.2.2.1 _)
    · cases hStep
  | cache action | stored =>
    simp only [step] at hStep
    split at hStep
    · rename_i hPhase
      exact absurd hPhase (hPhases.2.2.2 _ _ _ _)
    · cases hStep
  | _ => cases hClient

end

/-! ## The law -/

/-- The stream failed at `d`, and the client has not been connected since. When the clock
reads the same at each failure of a stream as at the last store before it, the client does not
end with `CacheExpired` before `d + max_stale_age`. From then on it has a step to take, and each
of its steps ends it, or is one of at most two waits that are over at once; it does not come
back. -/
theorem expires_after_failure {current : VersionedAuthorizationSnapshot}
    {actions : List DistributionAction} {d : Int}
    (hPrompt : Guarded (step sha256 config) prompt (init current) actions)
    (hRun : exec (step sha256 config) (init current) actions = some s)
    (hFailed : s.failedAt = some d) (hRunning : s.phase ≠ .down) :
    (∀ a s', s.step sha256 config a = some s' → s'.phase = .down →
      s'.ended = some (.error .cacheExpired) → d + config.maxStaleAge ≤ s.now) ∧
    (s.retries → d + config.maxStaleAge ≤ s.now →
      (∃ a, a.ofClient ∧ (s.step sha256 config a).isSome) ∧ s.waits ≤ 2 ∧
      ∀ a s', s.step sha256 config a = some s' → s'.phase = .down ∧
            (s'.ended = some (.error .cacheExpired) ∨ a = .shutdown ∨ a = .crash) ∨
          s'.retries ∧ s'.failedAt = some d ∧
            if a.ofClient then s'.waits < s.waits else s'.phase = s.phase) := by
  have hSafe : s.Safe sha256 ∧ s.Timed config := by
    refine exec_induction_guarded (P := fun t => t.Safe sha256 ∧ t.Timed config)
      (fun t a t' hInv hGuard hStep => ?_) ?_ hPrompt hRun
    · exact ⟨safe_step hInv.1 hStep, timed_step hInv.2 hInv.1 hGuard hStep⟩
    · exact ⟨safe_init current, Timed.of_none rfl rfl⟩
  have hTimed := hSafe.2
  obtain ⟨-, hAt⟩ := (hTimed.failed d hFailed).resolve_left hRunning
  have hExpires : s.expiresAt config = d + config.maxStaleAge := by rw [expiresAt, hAt]
  refine ⟨?_, fun hRetries hNow => ?_⟩
  · intro _ _ hStep hDown hEnded
    rw [← hExpires]
    rcases step_expired hRunning hStep hDown hEnded with hLt | ⟨e, hDeadline, hLe⟩
    · exact hLt.le
    · exact hTimed.deadline e hDeadline ▸ hLe
  · rw [← hExpires] at hNow
    refine ⟨exists_step_of_expired hTimed hRetries hNow, ?_, fun a s' hStep => ?_⟩
    · unfold waits
      split <;> omega
    · cases hClient : a.ofClient with
      | true =>
        rw [← hFailed]
        exact step_of_expired hTimed hRetries hNow hClient hStep
      | false =>
        have hFrame : s'.phase = s.phase ∧ s'.failedAt = s.failedAt ∧ _ := step_frame (by
          cases a <;> trivial) hStep
        refine .inr ⟨?_, hFrame.2.1.trans hFailed, hFrame.1⟩
        rw [retries, hFrame.1]
        exact hRetries

namespace Example

/-- Online bootstrap with version 1 at 5 ms. -/
def bootstrap : List DistributionAction :=
  [.clock 5000000, .start, .connect, .respond, .receive []] ++
    List.replicate 6 (.cache .proceed) ++ [.stored]

end Example

open CacheExample in
/-- The stream fails at once, at 5 ms; the client waits, and ends 60 ns later. -/
theorem expires_after_failure_waited : ∃ s s',
    exec (step noDigest Example.clientConfig) (init one)
        (Example.bootstrap ++ [.readFails, .waitForRetry, .clock 5000060]) = some s ∧
      s.failedAt = some 5000000 ∧ s.step noDigest Example.clientConfig .elapse = some s' ∧
      s'.ended = some (.error .cacheExpired) ∧ (5000000 : Int) + 60 ≤ s.now := by
  obtain ⟨s, hExec, hFailed, hRunning, s', hStep, hDown, hExpired⟩ : ∃ s,
      exec (step noDigest Example.clientConfig) (init one)
        (Example.bootstrap ++ [.readFails, .waitForRetry, .clock 5000060]) = some s ∧
      s.failedAt = some 5000000 ∧ s.phase ≠ .down ∧
      ∃ s', s.step noDigest Example.clientConfig .elapse = some s' ∧ s'.phase = .down ∧
        s'.ended = some (.error .cacheExpired) := by decide +kernel
  have hPrompt : Guarded (step noDigest Example.clientConfig) prompt (init one)
      (Example.bootstrap ++ [.readFails, .waitForRetry, .clock 5000060]) := by
    decide +kernel
  have hLaw := expires_after_failure hPrompt hExec hFailed hRunning
  exact ⟨s, s', hExec, hFailed, hStep, hExpired, hLaw.1 .elapse s' hStep hDown hExpired⟩

open CacheExample in
/-- The stream is quiet for 100 ns and then fails: the client ends at that time, 60 ns too
early. -/
theorem quiet_stream_expires_early : ∃ s s',
    exec (step noDigest Example.clientConfig) (init one)
        (Example.bootstrap ++ [.clock 5000100, .readFails]) = some s ∧
      s.failedAt = some 5000100 ∧ s.now = 5000100 ∧
      s.step noDigest Example.clientConfig .waitForRetry = some s' ∧
      s'.ended = some (.error .cacheExpired) ∧
      s.now < 5000100 + Example.clientConfig.maxStaleAge := by
  obtain ⟨s, hExec, hFailed, hNow, s', hStep, hEnded⟩ : ∃ s,
      exec (step noDigest Example.clientConfig) (init one)
        (Example.bootstrap ++ [.clock 5000100, .readFails]) = some s ∧
      s.failedAt = some 5000100 ∧ s.now = 5000100 ∧
      ∃ s', s.step noDigest Example.clientConfig .waitForRetry = some s' ∧
        s'.ended = some (.error .cacheExpired) := by decide +kernel
  refine ⟨s, s', hExec, hFailed, hNow, hStep, hEnded, ?_⟩
  rw [hNow]
  decide

end Distribution

end TunnelProxy.Control
