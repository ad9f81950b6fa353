import TunnelProxy.Edge.RateLimit
import TunnelProxy.Lib.Transition

/-!
# How much the limiter admits

`Served` is a limiter with the admissions it has given, and a run is a list of calls, each
at an instant of its own; instants may go back.

* `admissions_bounded` — the global quota bounds all admissions of a run, rejected calls
  take nothing, and the table is bounded and listed
* `retry_exact` — after a rejection the bucket has a token again exactly `retry_after` after
  its last refill. That is the instant of the call unless a call before it was later
  (`retry_too_early`).
* `peer_admissions_bounded` — the quota of a peer bounds its admissions in any window, if
  calls come in the order of their instants and a bucket is dropped only after the time it
  takes to fill. Validation does not ask for the second, and without either the bound fails
  (`peer_admissions_unbounded`).
-/

namespace TunnelProxy.Edge

open Std RateLimiterState Transition TokenBucket HttpRequestRateLimitConfig List Option

/-- A limiter and its admissions, newest first. -/
structure Served where
  limiter : RateLimiterState
  admissions : List (IpAddr × Instant)

namespace Served

def newAt (config : HttpRequestRateLimitConfig) (creation : Instant) : Served :=
  ⟨RateLimiterState.newAt config creation, []⟩

/-- One call of `try_admit_at`. -/
def serve (config : HttpRequestRateLimitConfig) (s : Served) (call : IpAddr × Instant) :
    Option Served :=
  (s.limiter.tryAdmitAt config call.1 call.2).map fun (limiter, result) =>
    match result with
    | .ok () => ⟨limiter, call :: s.admissions⟩
    | .error _ => ⟨limiter, s.admissions⟩

variable {config : HttpRequestRateLimitConfig} {s s' : Served} {peer : IpAddr} {now : Instant}

/-- A call is rejected and adds nothing, or it is admitted. -/
theorem serve_cases (h : serve config s (peer, now) = some s') :
    (∃ rejection, Admission config s.limiter peer now s'.limiter (.error rejection) ∧
      s'.admissions = s.admissions) ∨
    (Admission config s.limiter peer now s'.limiter (.ok ()) ∧
      s'.admissions = (peer, now) :: s.admissions) := by
  obtain ⟨⟨_, result⟩, hCall, rfl⟩ := map_eq_some_iff.mp h
  have hCase := tryAdmitAt_cases hCall
  cases result with
  | ok => exact .inr ⟨hCase, rfl⟩
  | error rejection => exact .inl ⟨rejection, hCase, rfl⟩

theorem serve_admission (h : serve config s (peer, now) = some s') :
    ∃ result, Admission config s.limiter peer now s'.limiter result := by
  rcases serve_cases h with ⟨_, hCase, -⟩ | ⟨hCase, -⟩
  · exact ⟨_, hCase⟩
  · exact ⟨_, hCase⟩

/-- Every call is answered, so every list of calls is a run. -/
theorem run_total (config : HttpRequestRateLimitConfig) (s : Served)
    (calls : List (IpAddr × Instant)) :
    ∃ s', exec (serve config) s calls = some s' := by
  induction calls generalizing s with
  | nil => exact ⟨s, rfl⟩
  | cons call _ ih =>
    obtain ⟨_, hAnswer⟩ :=
      isSome_iff_exists.mp (tryAdmitAt_isSome config s.limiter call.1 call.2)
    have hServe : ∃ s₁, serve config s call = some s₁ := by
      rw [serve, hAnswer]
      exact ⟨_, rfl⟩
    obtain ⟨s₁, hStep⟩ := hServe
    obtain ⟨s', hRest⟩ := ih s₁
    exact ⟨s', exec_cons_eq_some.mpr ⟨s₁, hStep, hRest⟩⟩

end Served

variable {result : Except HttpRateLimitRejection Unit} {call : IpAddr × Instant}
  {rejection : HttpRateLimitRejection}

namespace RateLimiterState

variable {config : HttpRequestRateLimitConfig} {s s' s₁ : RateLimiterState} {peer : IpAddr}
  {now : Instant} {entry : PeerBucket} {rejection : HttpRateLimitRejection}
  {result : Except HttpRateLimitRejection Unit}

theorem Tracked.global_eq (h : Tracked config s peer now s₁ entry) : s₁.global = s.global := by
  cases h with
  | known => rfl
  | fresh _ _ hPruned => exact hPruned.global

/-- The global bucket of a rejected call is refilled and nothing else. -/
theorem Admission.global_of_error (h : Admission config s peer now s' (.error rejection)) :
    s'.global = s.global.refill now := by
  cases h with
  | global => rfl
  | peerTableFull _ _ hPruned => exact hPruned.global
  | perIp _ _ _ hTracked => exact hTracked.global_eq

/-- That of an admitted call has paid one token, which it had. -/
theorem Admission.global_of_ok (h : Admission config s peer now s' (.ok ())) :
    s'.global = (s.global.refill now).consume ∧ tokenScale ≤ (s.global.refill now).tokens := by
  cases h with
  | admitted s₁ _ hGlobal hTracked =>
    refine ⟨?_, retryAfter_eq_none hGlobal⟩
    show s₁.global.consume = _
    rw [hTracked.global_eq]
    rfl

/-- The global bucket holds the latest instant of all calls. -/
theorem Admission.lastRefill (h : Admission config s peer now s' result) :
    s'.global.lastRefill.nanos = max s.global.lastRefill.nanos now.nanos := by
  cases result with
  | error => rw [h.global_of_error, refill_lastRefill]
  | ok => rw [h.global_of_ok.1, consume_lastRefill, refill_lastRefill]

/-- A new bucket is full, so it is a known one that can have run out. -/
theorem Tracked.known_of_retry (hAccepted : config.Accepted)
    (hTracked : Tracked config s peer now s₁ entry) {wait : Nat}
    (hRetry : (entry.bucket.refill now).retryAfter = some wait) :
    s₁ = s ∧ s.peers[peer]? = some entry := by
  cases hTracked with
  | known _ hEntry => exact ⟨rfl, hEntry⟩
  | fresh _ _ _ _ _ =>
    have hOf := TokenBucket.Of.new hAccepted.perIp now
    have hFull := Nat.le_trans hOf.scale_le_capacity (hOf.tokens_le_refill now)
    have hShort := ((hOf.refill now).retryAfter_eq_some hRetry).1
    omega

/-- What a call makes of the entry of a peer that it takes a token of, or not. -/
inductive Touched (config : HttpRequestRateLimitConfig) (now : Instant) (pays : Prop) :
    Option PeerBucket → Option PeerBucket → Prop
  | same {before : Option PeerBucket} (hFree : ¬pays) : Touched config now pays before before
  | dropped {entry : PeerBucket} (hFree : ¬pays)
      (hIdle : config.peerIdleTtl ≤ now.nanos - entry.lastSeen.nanos) :
      Touched config now pays (some entry) none
  | refused {entry : PeerBucket} (hFree : ¬pays) :
      Touched config now pays (some entry) (some ⟨entry.bucket.refill now, now⟩)
  | paid {before : Option PeerBucket} {entry : PeerBucket} (hPays : pays)
      (hFound : before = some entry ∨ before = none ∧
        entry = ⟨.new config.perIpRequestsPerSecond config.perIpBurst now, now⟩)
      (hToken : (entry.bucket.refill now).retryAfter = none) :
      Touched config now pays before (some ⟨(entry.bucket.refill now).consume, now⟩)

theorem Pruned.touched {pays : Prop} (h : Pruned now config.peerIdleTtl s s') (hFree : ¬pays)
    (p : IpAddr) : Touched config now pays s.peers[p]? s'.peers[p]? := by
  rcases h.peers p with hSame | ⟨hNone, _, hEntry, hIdle⟩
  · rw [hSame]
    exact .same hFree
  · rw [hNone, hEntry]
    exact .dropped hFree hIdle

theorem Tracked.touched {pays : Prop} {p : IpAddr} (h : Tracked config s peer now s₁ entry)
    (hFree : ¬pays) (hOther : p ≠ peer) : Touched config now pays s.peers[p]? s₁.peers[p]? := by
  cases h with
  | known => exact .same hFree
  | fresh _ _ hPruned =>
    rw [getElem?_insert_eq, if_neg hOther]
    exact hPruned.touched hFree p

theorem Admission.touched (hAccepted : config.Accepted)
    (h : Admission config s peer now s' result) (p : IpAddr) :
    Touched config now (result = .ok () ∧ peer = p) s.peers[p]? s'.peers[p]? := by
  cases h with
  | global => exact .same (by simp)
  | peerTableFull _ _ hPruned => exact Pruned.touched (s := s.refilled now) hPruned (by simp) p
  | perIp _ entry _ hTracked hRetry =>
    rw [getElem?_insert_eq]
    split_ifs with hp
    · obtain ⟨-, hKnown⟩ := hTracked.known_of_retry hAccepted hRetry
      have hKnown : s.peers[p]? = some entry := hp ▸ hKnown
      rw [hKnown]
      exact .refused (by simp)
    · exact Tracked.touched (s := s.refilled now) hTracked (by simp) hp
  | admitted _ entry _ hTracked hToken =>
    rw [getElem?_insert_eq]
    split_ifs with hp
    · refine .paid ⟨rfl, hp.symm⟩ ?_ hToken
      cases hTracked with
      | known _ hKnown => exact .inl (hp ▸ hKnown)
      | fresh _ hNew =>
        rw [ExtTreeMap.mem_iff_isSome_getElem?, not_isSome_iff_eq_none] at hNew
        exact .inr ⟨hp ▸ hNew, rfl⟩
    · exact Tracked.touched (s := s.refilled now) hTracked (fun hPays => hp hPays.2.symm) hp

end RateLimiterState

namespace Served

variable {config : HttpRequestRateLimitConfig} {s s' : Served} {creation : Instant}
  {calls : List (IpAddr × Instant)}

/-! ## All admissions -/

/-- The latest instant the limiter has seen, its creation included. -/
def latest (start : Nat) (calls : List (IpAddr × Instant)) : Nat :=
  calls.foldl (fun latest call => max latest call.2.nanos) start

theorem lastRefill_run (hRun : exec (serve config) s calls = some s') :
    s'.limiter.global.lastRefill.nanos = latest s.limiter.global.lastRefill.nanos calls := by
  induction calls generalizing s with
  | nil =>
    cases hRun
    rfl
  | cons _ _ ih =>
    obtain ⟨_, hStep, hRest⟩ := exec_cons_eq_some.mp hRun
    obtain ⟨_, hCase⟩ := serve_admission hStep
    rw [ih hRest, hCase.lastRefill]
    rfl

/-- What was admitted and what is left is covered by the first fill and by the time since. -/
structure Paid (config : HttpRequestRateLimitConfig) (creation : Instant) (s : Served) : Prop where
  sound : Sound config s.limiter
  started : creation.nanos ≤ s.limiter.global.lastRefill.nanos
  covered : s.admissions.length * tokenScale + s.limiter.global.tokens ≤
    config.globalBurst * tokenScale +
      config.globalRequestsPerSecond * (s.limiter.global.lastRefill.nanos - creation.nanos)

theorem Paid.newAt (h : config.Accepted) (creation : Instant) :
    Paid config creation (newAt config creation) where
  sound := Sound.newAt h creation
  started := Nat.le_refl _
  covered := by
    show 0 * tokenScale + config.globalBurst * tokenScale ≤ _
    rw [Nat.zero_mul, Nat.zero_add]
    exact Nat.le_add_right _ _

/-- A refill is paid by the time since the last one. -/
theorem Paid.refill (h : Paid config creation s) (now : Instant) :
    s.admissions.length * tokenScale + (s.limiter.global.refill now).tokens ≤
      config.globalBurst * tokenScale + config.globalRequestsPerSecond *
        (max s.limiter.global.lastRefill.nanos now.nanos - creation.nanos) := by
  have hOf := h.sound.global
  have hGain := ExactBucket.refill_tokens_le (b := s.limiter.global.exact) hOf.tokens_le now.nanos
    h.started
  rw [← exact_refill hOf] at hGain
  have hLast := refill_lastRefill s.limiter.global now
  have hRate := hOf.rate_eq
  have hCovered := h.covered
  simp only [TokenBucket.exact] at hGain
  rw [hRate, hLast] at hGain
  omega

theorem Paid.serve (hAccepted : config.Accepted)
    (h : Paid config creation s) (hStep : serve config s call = some s') :
    Paid config creation s' := by
  obtain ⟨_, hAdmission⟩ := serve_admission hStep
  have hLast := hAdmission.lastRefill
  have hRefill := h.refill call.2
  have hStarted := h.started
  refine ⟨h.sound.tryAdmitAt hAccepted hAdmission, by omega, ?_⟩
  rcases serve_cases hStep with ⟨_, hCase, hSame⟩ | ⟨hCase, hMore⟩
  · rw [hSame, hLast, hCase.global_of_error]
    exact hRefill
  · obtain ⟨hGlobal, _⟩ := hCase.global_of_ok
    rw [hMore, hLast, hGlobal, consume_tokens, length_cons, Nat.succ_mul]
    omega

theorem Paid.run (hAccepted : config.Accepted)
    (hRun : exec (Served.serve config) (Served.newAt config creation) calls = some s) :
    Paid config creation s :=
  exec_induction (P := Paid config creation)
    (fun _ _ _ h hStep => h.serve hAccepted hStep) (Paid.newAt hAccepted creation) hRun

end Served

/-- A rejected call takes no token: no bucket goes and none holds less. -/
theorem RateLimiterState.Sound.rejected {config : HttpRequestRateLimitConfig}
    {s s' : RateLimiterState} {peer : IpAddr} {now : Instant}
    (h : Sound config s) (hAccepted : config.Accepted)
    (hCase : Admission config s peer now s' (.error rejection)) :
    s.global.tokens ≤ s'.global.tokens ∧
    ∀ (p : IpAddr) (entry : PeerBucket), s.peers[p]? = some entry →
      ∃ entry' : PeerBucket, s'.peers[p]? = some entry' ∧
        entry.bucket.tokens ≤ entry'.bucket.tokens := by
  refine ⟨?_, fun p entry hEntry => ?_⟩
  · rw [hCase.global_of_error]
    exact h.global.tokens_le_refill now
  · cases hCase with
    | global => exact ⟨entry, hEntry, Nat.le_refl _⟩
    | peerTableFull _ _ hPruned _ =>
      -- the table was full, so nothing was idle
      have hSize := h.size_le
      rcases hPruned.size with hSame | _
      · exact ⟨entry, hSame ▸ hEntry, Nat.le_refl _⟩
      · have hBefore : (s.refilled now).peers.size = s.peers.size := rfl
        omega
    | perIp _ entry₁ _ hTracked hRetry =>
      obtain ⟨rfl, hKnown⟩ := hTracked.known_of_retry hAccepted hRetry
      have hOf := h.peers peer entry₁ hKnown
      show ∃ entry' : PeerBucket, (s.peers.insert peer ⟨entry₁.bucket.refill now, now⟩)[p]? =
        some entry' ∧ _
      rw [getElem?_insert_eq]
      split_ifs with hp
      · subst hp
        cases hEntry.symm.trans hKnown
        exact ⟨_, rfl, hOf.tokens_le_refill now⟩
      · exact ⟨entry, hEntry, Nat.le_refl _⟩

open Served in
/-- For every validated configuration and every list of calls: the admissions are at most
`global_burst` and what the global rate gives from the creation to the latest instant; a
rejected call leaves no bucket with less; and the table is within its bound and listed by
the rotation, each peer once. -/
theorem admissions_bounded {config : HttpRequestRateLimitConfig} (hValid : config.validate = .ok ())
    (creation : Instant) (calls : List (IpAddr × Instant)) :
    ∃ s, exec (serve config) (newAt config creation) calls = some s ∧
      s.admissions.length * tokenScale ≤ config.globalBurst * tokenScale +
        config.globalRequestsPerSecond * (latest creation.nanos calls - creation.nanos) ∧
      (∀ peer now s' rejection, s.limiter.tryAdmitAt config peer now = some (s', .error rejection) →
        s.limiter.global.tokens ≤ s'.global.tokens ∧
        ∀ (p : IpAddr) (entry : PeerBucket), s.limiter.peers[p]? = some entry →
          ∃ entry' : PeerBucket, s'.peers[p]? = some entry' ∧
            entry.bucket.tokens ≤ entry'.bucket.tokens) ∧
      s.limiter.peers.size ≤ config.maxTrackedIps ∧
      s.limiter.peerOrder.Nodup ∧
      ∀ peer, peer ∈ s.limiter.peerOrder ↔ peer ∈ s.limiter.peers := by
  have hAccepted := accepted hValid
  obtain ⟨s, hRun⟩ := run_total config (newAt config creation) calls
  have hPaid := Paid.run hAccepted hRun
  have hLast : s.limiter.global.lastRefill.nanos = latest creation.nanos calls :=
    lastRefill_run hRun
  refine ⟨s, hRun, ?_, ?_, hPaid.sound.size_le, hPaid.sound.listed.nodup,
    hPaid.sound.listed.mem_iff⟩
  · have hCovered := hPaid.covered
    rw [hLast] at hCovered
    omega
  · intro _ _ _ _ hCall
    exact hPaid.sound.rejected hAccepted (tryAdmitAt_cases hCall)

namespace RateExample

def peerA : IpAddr := ⟨[192, 0, 2, 1], .inl rfl⟩

def peerB : IpAddr := ⟨[192, 0, 2, 2], .inl rfl⟩

/-- A limiter of ten requests per second, of which one peer may have one, in bursts of two. -/
def config : HttpRequestRateLimitConfig where
  globalRequestsPerSecond := 10
  globalBurst := 10
  perIpRequestsPerSecond := 1
  perIpBurst := 2

def seconds (n : Fin (2 ^ 64)) : Instant :=
  ⟨n * 1000000000, Nat.mul_lt_mul_of_pos_right n.isLt (by decide)⟩

end RateExample

open Served RateExample in
/-- Two requests of one peer pass at once, and the bound holds of them. -/
theorem admissions_bounded_two : ∃ s, exec (serve config) (newAt config (seconds 0))
        [(peerA, seconds 0), (peerA, seconds 0)] = some s ∧
      s.admissions.length = 2 ∧ s.admissions.length * tokenScale ≤ config.globalBurst * tokenScale +
        config.globalRequestsPerSecond * 0 := by
  obtain ⟨s, hRun, hBound, -⟩ := @admissions_bounded config (by decide) (seconds 0)
    [(peerA, seconds 0), (peerA, seconds 0)]
  have hCount : (exec (serve config) (newAt config (seconds 0))
      [(peerA, seconds 0), (peerA, seconds 0)]).any (fun s => s.admissions.length = 2) = true := by
    decide +kernel
  rw [hRun] at hCount
  exact ⟨s, hRun, of_decide_eq_true hCount, hBound⟩

/-! ## When to come back -/

namespace TokenBucket

/-- `wait` nanoseconds are the ceiling of what is missing to a whole token over the rate. -/
def IsWait (b : TokenBucket) (wait : Nat) : Prop :=
  tokenScale - b.tokens ≤ wait * b.rate ∧ ∀ less < wait, less * b.rate < tokenScale - b.tokens

/-- Refilled at an instant, the bucket has a whole token exactly if that instant, or its last
refill, is `due` or later. -/
def DueAt (b : TokenBucket) (due : Nat) : Prop :=
  ∀ now : Instant, tokenScale ≤ (b.refill now).tokens ↔ due ≤ max b.lastRefill.nanos now.nanos

variable {rate burst wait : Nat} {b b' : TokenBucket}

theorem exact_injective (h : b.exact = b'.exact) : b = b' := by
  obtain ⟨_, _, _, ⟨_, _⟩⟩ := b
  obtain ⟨_, _, _, ⟨_, _⟩⟩ := b'
  simp only [exact, ExactBucket.mk.injEq] at h
  obtain ⟨rfl, rfl, rfl, rfl⟩ := h
  rfl

/-- What refills alone make of a bucket. -/
def Refilled (b b' : TokenBucket) : Prop := ∃ now : Instant, b' = b.refill now

theorem Refilled.refl (b : TokenBucket) : Refilled b b :=
  ⟨b.lastRefill, (if_pos (Nat.le_refl _)).symm⟩

theorem Refilled.refill (hOf : b.Of rate burst) (h : Refilled b b') (now : Instant) :
    Refilled b (b'.refill now) := by
  obtain ⟨w, rfl⟩ := h
  -- two refills are one at the later instant
  refine ⟨if w.nanos ≤ now.nanos then now else w, exact_injective ?_⟩
  have hLater : (if w.nanos ≤ now.nanos then now else w).nanos = max w.nanos now.nanos := by
    split_ifs <;> omega
  rw [exact_refill (hOf.refill w), exact_refill hOf, exact_refill hOf, hLater]
  exact ExactBucket.refill_refill hOf.tokens_le w.nanos now.nanos

theorem Of.isWait (hOf : b.Of rate burst) (hRetry : b.retryAfter = some wait) : b.IsWait wait := by
  obtain ⟨-, rfl⟩ := hOf.retryAfter_eq_some hRetry
  have hIff := ExactBucket.wait_le_iff (b := b.exact) hOf.rate_pos tokenScale
  refine ⟨(hIff _).mp (Nat.le_refl _), fun less hLess => ?_⟩
  by_contra hEnough
  have hWait := (hIff less).mpr (Nat.le_of_not_lt hEnough)
  omega

/-- An exhausted bucket that is only refilled is due when its wait is over. -/
theorem Of.dueAt (hOf : b.Of rate burst) (hRetry : b.retryAfter = some wait)
    (hRefilled : Refilled b b') : b'.DueAt (b.lastRefill.nanos + wait) := by
  obtain ⟨hShort, rfl⟩ := hOf.retryAfter_eq_some hRetry
  obtain ⟨w, rfl⟩ := hRefilled
  intro now
  have hAfford := @ExactBucket.cost_le_refill_iff b.exact tokenScale hOf.rate_pos
    hOf.scale_le_capacity hOf.tokens_le hShort (max w.nanos now.nanos)
  rw [← ExactBucket.refill_refill hOf.tokens_le, ← exact_refill hOf, ← exact_refill (hOf.refill w),
    exact_tokens] at hAfford
  rw [hAfford, refill_lastRefill]
  have hPos : 0 < b.exact.wait tokenScale := by
    by_contra hZero
    have hNone := (ExactBucket.wait_le_iff (b := b.exact) hOf.rate_pos tokenScale 0).mp (by omega)
    have hTokens : b.exact.tokens = b.tokens := rfl
    omega
  have hFilled : b.exact.filledAt = b.lastRefill.nanos := rfl
  omega

end TokenBucket

namespace Served

variable {config : HttpRequestRateLimitConfig} {s s' : Served} {call : IpAddr × Instant}
  {calls : List (IpAddr × Instant)} {l l' : RateLimiterState} {burst rate : Nat} {now : Instant}

/-- The admissions of the kind that `who` selects. -/
def admitted (s : Served) (who : IpAddr → Bool) : Nat := s.admissions.countP fun call => who call.1

theorem admitted_le_serve (who : IpAddr → Bool) (h : serve config s call = some s') :
    s.admitted who ≤ s'.admitted who := by
  rcases serve_cases h with ⟨_, -, hSame⟩ | ⟨-, hMore⟩
  · unfold admitted
    rw [hSame]
  · unfold admitted
    rw [hMore, countP_cons]
    exact Nat.le_add_right _ _

theorem admitted_le_run (who : IpAddr → Bool)
    (hRun : exec (serve config) s calls = some s') :
    s.admitted who ≤ s'.admitted who :=
  exec_induction (P := fun s' => s.admitted who ≤ s'.admitted who)
    (fun _ _ _ hLe hStep => Nat.le_trans hLe (admitted_le_serve who hStep)) (Nat.le_refl _) hRun

/-- **Runs without admissions.** What every call keeps that admits nobody of the kind holds
after every run that has admitted nobody of it. -/
theorem unadmitted_induction (who : IpAddr → Bool) {P : Served → Prop}
    (hStep : ∀ s call s', P s → serve config s call = some s' →
      s'.admitted who = s.admitted who → P s') :
    ∀ {calls : List (IpAddr × Instant)} {s s' : Served}, P s →
      exec (serve config) s calls = some s' →
      s'.admitted who = s.admitted who → P s' := by
  intro calls
  induction calls with
  | nil =>
    intro _ _ hP hRun _
    cases hRun
    exact hP
  | cons call _ ih =>
    intro s _ hP hRun _
    obtain ⟨s₁, hCall, hRest⟩ := exec_cons_eq_some.mp hRun
    have hFirst := admitted_le_serve who hCall
    have hLater := admitted_le_run who hRest
    exact ih (hStep s call s₁ hP hCall (by omega)) hRest (by omega)

/-- A call that admits nobody of the kind is rejected, or it is of someone else. -/
theorem rejected_of_unadmitted {who : IpAddr → Bool} (h : serve config s call = some s')
    (hNobody : s'.admitted who = s.admitted who) (hWho : who call.1 = true) :
    ∃ rejection, Admission config s.limiter call.1 call.2 s'.limiter (.error rejection) := by
  rcases serve_cases h with ⟨rejection, hCase, -⟩ | ⟨-, hMore⟩
  · exact ⟨rejection, hCase⟩
  · unfold admitted at hNobody
    rw [hMore, countP_cons, if_pos hWho] at hNobody
    omega

/-- The bucket of a peer, if it still has one, is `b` after some refills. -/
def Keeps (peer : IpAddr) (b : TokenBucket) (s : RateLimiterState) : Prop :=
  ∀ entry : PeerBucket, s.peers[peer]? = some entry → TokenBucket.Refilled b entry.bucket

variable {peer : IpAddr} {b : TokenBucket}

theorem Keeps.admission {q : IpAddr}
    (hAccepted : config.Accepted) (hOf : b.Of rate burst) (h : Keeps peer b l)
    (hCase : Admission config l q now l' result) (hRejected : q = peer → result ≠ .ok ()) :
    Keeps peer b l' := by
  intro entry' hEntry'
  have hTouched := hCase.touched hAccepted peer
  rw [hEntry'] at hTouched
  generalize hBefore : l.peers[peer]? = before at hTouched
  cases hTouched with
  | same => exact h entry' hBefore
  | refused => exact (h _ hBefore).refill hOf now
  | paid hPays => exact absurd hPays.1 (hRejected hPays.2)

theorem keeps_unadmitted (hAccepted : config.Accepted) (hOf : b.Of rate burst)
    (hStart : Keeps peer b s.limiter) (hRun : exec (serve config) s calls = some s')
    (hNobody : s'.admitted (fun p => p = peer) = s.admitted fun p => p = peer) :
    Keeps peer b s'.limiter := by
  refine unadmitted_induction (fun p => p = peer) (P := fun s => Keeps peer b s.limiter) ?_
    hStart hRun hNobody
  intro _ call _ hKeeps hStep hSame
  by_cases hPeer : call.1 = peer
  · obtain ⟨_, hCase⟩ := rejected_of_unadmitted hStep hSame (decide_eq_true hPeer)
    exact hKeeps.admission hAccepted hOf hCase fun _ => by simp
  · obtain ⟨_, hCase⟩ := serve_admission hStep
    exact hKeeps.admission hAccepted hOf hCase fun hq => absurd hq hPeer

end Served

open Served in
/-- For every call, in any state a validated limiter reaches, that is rejected for want of a
token with `retry_after` `d`: the exhausted bucket was refilled last at the later of the
call's instant and its refill before; `d` is the ceiling of its deficit over its rate; and as
long as nothing is admitted from it, it has a whole token at `d` after that refill and at no
nanosecond before. -/
theorem retry_exact {config : HttpRequestRateLimitConfig} (hValid : config.validate = .ok ())
    {creation : Instant} {calls : List (IpAddr × Instant)} {s : Served}
    (hRun : exec (serve config) (newAt config creation) calls = some s)
    {peer : IpAddr} {now : Instant} {s' : RateLimiterState} {rejection : HttpRateLimitRejection}
    (hCall : s.limiter.tryAdmitAt config peer now = some (s', .error rejection)) (d : Nat) :
    (rejection = .global d →
      s'.global.lastRefill.nanos = max s.limiter.global.lastRefill.nanos now.nanos ∧
      s'.global.IsWait d ∧
      ∀ more s'', exec (serve config) ⟨s', s.admissions⟩ more = some s'' →
        s''.admitted (fun _ => true) = s.admitted (fun _ => true) →
        s''.limiter.global.DueAt (s'.global.lastRefill.nanos + d)) ∧
    (rejection = .perIp d → ∃ before after : PeerBucket, s.limiter.peers[peer]? = some before ∧
        s'.peers[peer]? = some after ∧
        after.bucket.lastRefill.nanos = max before.bucket.lastRefill.nanos now.nanos ∧
        after.bucket.IsWait d ∧
        ∀ more s'', exec (serve config) ⟨s', s.admissions⟩ more = some s'' →
          s''.admitted (fun p => p = peer) = s.admitted (fun p => p = peer) →
          ∀ entry : PeerBucket, s''.limiter.peers[peer]? = some entry →
            entry.bucket.DueAt (after.bucket.lastRefill.nanos + d)) := by
  have hAccepted := accepted hValid
  have hSound := (Paid.run hAccepted hRun).sound
  have hCase := tryAdmitAt_cases hCall
  constructor
  · rintro rfl
    cases hCase with
    | global _ hRetry =>
      have hOf := (hSound.refilled now).global
      refine ⟨refill_lastRefill _ now, hOf.isWait hRetry, ?_⟩
      intro _ _ hMore hNobody
      -- while nobody is admitted, the global bucket is only refilled
      refine hOf.dueAt hRetry (unadmitted_induction (fun _ => true)
        (P := fun s => Refilled _ s.limiter.global) ?_ (.refl _) hMore hNobody)
      intro _ call _ hRefilled hStep hSame
      obtain ⟨_, hCase⟩ := rejected_of_unadmitted hStep hSame rfl
      rw [hCase.global_of_error]
      exact hRefilled.refill hOf call.2
  · rintro rfl
    cases hCase with
    | perIp _ entry _ hTracked hRetry =>
      obtain ⟨rfl, hKnown⟩ := hTracked.known_of_retry hAccepted hRetry
      have hOf := (hSound.peers peer entry hKnown).refill now
      refine ⟨entry, ⟨entry.bucket.refill now, now⟩, hKnown, ExtTreeMap.getElem?_insert_self,
        refill_lastRefill _ now, hOf.isWait hRetry, ?_⟩
      intro _ _ hMore hNobody e he
      refine hOf.dueAt hRetry (keeps_unadmitted hAccepted hOf ?_ hMore hNobody e he)
      intro _ he'
      cases (ExtTreeMap.getElem?_insert_self).symm.trans he'
      exact .refl _

namespace RateExample

/-- One request per second for everyone together. -/
def single : HttpRequestRateLimitConfig where
  globalRequestsPerSecond := 1
  globalBurst := 1
  perIpRequestsPerSecond := 1
  perIpBurst := 1

/-- The call that follows a run is rejected, and the limiter is then in a state of the kind. -/
def rejects (config : HttpRequestRateLimitConfig) (calls : List (IpAddr × Instant))
    (call : IpAddr × Instant) (rejection : HttpRateLimitRejection)
    (p : RateLimiterState → Bool) : Bool :=
  (exec (Served.serve config) (Served.newAt config (seconds 0)) calls).any fun s =>
    (s.limiter.tryAdmitAt config call.1 call.2).any fun answer =>
      answer.2 = .error rejection && p answer.1

theorem rejects_elim {config : HttpRequestRateLimitConfig} {calls : List (IpAddr × Instant)}
    {p : RateLimiterState → Bool}
    (h : rejects config calls call rejection p = true) :
    ∃ s s', exec (Served.serve config) (Served.newAt config (seconds 0)) calls = some s ∧
      s.limiter.tryAdmitAt config call.1 call.2 = some (s', .error rejection) ∧ p s' = true := by
  obtain ⟨s, hRun, hAnswer⟩ := (any_eq_true _ _).mp h
  obtain ⟨⟨s', result⟩, hCall, hResult⟩ := (any_eq_true _ _).mp hAnswer
  rw [Bool.and_eq_true] at hResult
  obtain ⟨hError, hState⟩ := hResult
  have hResult' : result = .error rejection := of_decide_eq_true hError
  exact ⟨s, s', hRun, hResult' ▸ hCall, hState⟩

end RateExample

open Served RateExample in
/-- Asked again at the instant of the only admission, the limiter asks to wait for a second
and has a token one second later. -/
theorem retry_exact_single :
    ∃ s s', exec (serve single) (newAt single (seconds 0)) [(peerA, seconds 2)] = some s ∧
      s.limiter.tryAdmitAt single peerA (seconds 2) = some (s', .error (.global 1000000000)) ∧
      s'.global.IsWait 1000000000 ∧ s'.global.DueAt (3 * 1000000000) := by
  have hRejects : rejects single [(peerA, seconds 2)] (peerA, seconds 2) (.global 1000000000)
      (fun s' => s'.global.lastRefill.nanos = 2 * 1000000000) = true := by
    decide +kernel
  obtain ⟨s, s', hRun, hCall, hLast⟩ := rejects_elim hRejects
  obtain ⟨-, hWait, hDue⟩ := (retry_exact (by decide) hRun hCall 1000000000).1 rfl
  have hDue' := hDue [] ⟨s', s.admissions⟩ rfl rfl
  rw [of_decide_eq_true hLast] at hDue'
  exact ⟨s, s', hRun, hCall, hWait, hDue'⟩

open Served RateExample in
/-- A call at one second, after an admission at two: one second later, at two seconds, the
bucket is as empty as before, since no time has passed since its refill. -/
theorem retry_too_early :
    ∃ s s', exec (serve single) (newAt single (seconds 0)) [(peerA, seconds 2)] = some s ∧
      s.limiter.tryAdmitAt single peerA (seconds 1) = some (s', .error (.global 1000000000)) ∧
      (seconds 2).nanos = (seconds 1).nanos + 1000000000 ∧
      (s'.global.refill (seconds 2)).tokens < tokenScale := by
  have hRejects : rejects single [(peerA, seconds 2)] (peerA, seconds 1) (.global 1000000000)
      (fun s' => (s'.global.refill (seconds 2)).tokens < tokenScale) = true := by
    decide +kernel
  obtain ⟨s, s', hRun, hCall, hShort⟩ := rejects_elim hRejects
  exact ⟨s, s', hRun, hCall, by decide, of_decide_eq_true hShort⟩

/-! ## One peer -/

/-- `n` admissions of a peer since an instant are covered: what they cost and what its bucket
holds by a full bucket and the time until its last refill, or, when it has no bucket, what
they cost by the time until `latest` alone, so that a new full one is covered again. -/
def Covered (config : HttpRequestRateLimitConfig) (latest n start : Nat) : Option PeerBucket → Prop
  | some entry => start ≤ entry.bucket.lastRefill.nanos ∧
      n * tokenScale + entry.bucket.tokens ≤ config.perIpBurst * tokenScale +
        config.perIpRequestsPerSecond * (entry.bucket.lastRefill.nanos - start)
  | none => start ≤ latest ∧ n * tokenScale ≤ config.perIpRequestsPerSecond * (latest - start)

/-- A bucket that was not refilled for the idle time would be full. -/
def FillsWhileIdle (config : HttpRequestRateLimitConfig) : Prop :=
  config.perIpBurst * tokenScale ≤ config.perIpRequestsPerSecond * config.peerIdleTtl

namespace Covered

variable {config : HttpRequestRateLimitConfig} {latest latest' n start : Nat}
  {entry : PeerBucket} {now : Instant}

theorem later {bucket : Option PeerBucket} (h : Covered config latest n start bucket)
    (hLatest : latest ≤ latest') : Covered config latest' n start bucket := by
  cases bucket with
  | some => exact h
  | none =>
    obtain ⟨hStart, hPaid⟩ := h
    refine ⟨Nat.le_trans hStart hLatest, Nat.le_trans hPaid (Nat.mul_le_mul_left _ ?_)⟩
    omega

/-- The bucket is dropped: the idle time pays for the full one that may follow. -/
theorem removed (hFills : FillsWhileIdle config) (h : Covered config latest n start (some entry))
    (hSeen : entry.bucket.lastRefill.nanos ≤ entry.lastSeen.nanos)
    (hOrder : entry.lastSeen.nanos ≤ now.nanos)
    (hIdle : config.peerIdleTtl ≤ now.nanos - entry.lastSeen.nanos) :
    Covered config now.nanos n start none := by
  obtain ⟨_, hPaid⟩ := h
  refine ⟨by omega, ?_⟩
  have hFill : config.perIpBurst * tokenScale ≤
      config.perIpRequestsPerSecond * (now.nanos - entry.lastSeen.nanos) :=
    Nat.le_trans hFills (Nat.mul_le_mul_left _ hIdle)
  calc n * tokenScale
      ≤ config.perIpBurst * tokenScale + config.perIpRequestsPerSecond *
          (entry.bucket.lastRefill.nanos - start) := Nat.le_trans (Nat.le_add_right _ _) hPaid
    _ ≤ config.perIpRequestsPerSecond * (now.nanos - entry.lastSeen.nanos) +
          config.perIpRequestsPerSecond * (entry.bucket.lastRefill.nanos - start) :=
        Nat.add_le_add_right hFill _
    _ = config.perIpRequestsPerSecond * ((now.nanos - entry.lastSeen.nanos) +
          (entry.bucket.lastRefill.nanos - start)) := (Nat.mul_add _ _ _).symm
    _ ≤ config.perIpRequestsPerSecond * (now.nanos - start) :=
        Nat.mul_le_mul_left _ (by omega)

theorem fresh (h : Covered config latest n start none) (hLatest : latest ≤ now.nanos) :
    Covered config latest' n start
      (some ⟨.new config.perIpRequestsPerSecond config.perIpBurst now, now⟩) := by
  obtain ⟨hStart, hPaid⟩ := h.later hLatest
  refine ⟨hStart, ?_⟩
  show n * tokenScale + config.perIpBurst * tokenScale ≤ _
  rw [Nat.add_comm]
  exact Nat.add_le_add_left hPaid _

theorem refilled (hOf : entry.bucket.Of config.perIpRequestsPerSecond config.perIpBurst)
    (h : Covered config latest n start (some entry)) (now : Instant) :
    Covered config latest' n start (some ⟨entry.bucket.refill now, now⟩) := by
  obtain ⟨hStart, _⟩ := h
  have hGain :=
    ExactBucket.refill_tokens_le (b := entry.bucket.exact) hOf.tokens_le now.nanos hStart
  rw [← exact_refill hOf] at hGain
  simp only [TokenBucket.exact] at hGain
  rw [hOf.rate_eq] at hGain
  have hLast := refill_lastRefill entry.bucket now
  refine ⟨by dsimp only; omega, ?_⟩
  dsimp only
  omega

theorem consumed {b : TokenBucket} (h : Covered config latest n start (some ⟨b, now⟩))
    (hToken : tokenScale ≤ b.tokens) :
    Covered config latest' (n + 1) start (some ⟨b.consume, now⟩) := by
  obtain ⟨_, hPaid⟩ := h
  refine ⟨by rwa [consume_lastRefill], ?_⟩
  rw [consume_lastRefill, consume_tokens, Nat.succ_mul]
  dsimp only at hPaid ⊢
  omega

end Covered

namespace RateLimiterState

variable {config : HttpRequestRateLimitConfig} {s s' s₀ s₁ : RateLimiterState} {peer q : IpAddr}
  {now : Instant} {entry : PeerBucket} {n start latest : Nat}
  {result : Except HttpRateLimitRejection Unit}

/-- No bucket was refilled after its peer was last seen, and no peer was seen after `latest`. -/
def InOrder (latest : Nat) (s : RateLimiterState) : Prop :=
  ∀ (peer : IpAddr) (entry : PeerBucket), s.peers[peer]? = some entry →
    entry.bucket.lastRefill.nanos ≤ entry.lastSeen.nanos ∧ entry.lastSeen.nanos ≤ latest

/-- The entry that an admitted call draws from. -/
theorem InOrder.found (hAccepted : config.Accepted) (hSound : Sound config s)
    (hOrder : InOrder latest s) (hLatest : latest ≤ now.nanos)
    (hFound : s.peers[q]? = some entry ∨ s.peers[q]? = none ∧
      entry = ⟨.new config.perIpRequestsPerSecond config.perIpBurst now, now⟩) :
    entry.bucket.Of config.perIpRequestsPerSecond config.perIpBurst ∧
      entry.bucket.lastRefill.nanos ≤ now.nanos := by
  rcases hFound with hKnown | ⟨-, rfl⟩
  · obtain ⟨hSeen, hLast⟩ := hOrder q entry hKnown
    exact ⟨hSound.peers q entry hKnown, by omega⟩
  · exact ⟨.new hAccepted.perIp now, Nat.le_refl _⟩

/-- **What a call does to the account of a peer**: one more admission of its own, or nothing. -/
theorem Admission.covered (hFills : FillsWhileIdle config) (hAccepted : config.Accepted)
    (hSound : Sound config s) (hOrder : InOrder latest s) (hLatest : latest ≤ now.nanos)
    (hCase : Admission config s q now s' result) (p : IpAddr)
    (h : Covered config latest n start s.peers[p]?) :
    Covered config now.nanos (if result = .ok () ∧ q = p then n + 1 else n) start s'.peers[p]? := by
  have hTouched := hCase.touched hAccepted p
  generalize hBefore : s.peers[p]? = before at h hTouched
  generalize s'.peers[p]? = after at hTouched ⊢
  cases hTouched with
  | same hFree =>
    rw [if_neg hFree]
    exact h.later hLatest
  | dropped hFree hIdle =>
    obtain ⟨hSeen, hLast⟩ := hOrder p _ hBefore
    rw [if_neg hFree]
    exact h.removed hFills hSeen (Nat.le_trans hLast hLatest) hIdle
  | refused hFree =>
    rw [if_neg hFree]
    exact h.refilled (hSound.peers p _ hBefore) now
  | @paid _ entry hPays hFound hToken =>
    have hOf := (hOrder.found hAccepted hSound hLatest (hBefore ▸ hFound)).1
    have hEntry : Covered config now.nanos n start (some entry) := by
      rcases hFound with rfl | ⟨rfl, rfl⟩
      · exact h
      · exact h.fresh hLatest
    have hRefilled : Covered config now.nanos n start (some ⟨entry.bucket.refill now, now⟩) :=
      hEntry.refilled hOf now
    rw [if_pos hPays]
    exact hRefilled.consumed (retryAfter_eq_none hToken)

theorem Admission.inOrder (hAccepted : config.Accepted) (hSound : Sound config s)
    (hOrder : InOrder latest s) (hLatest : latest ≤ now.nanos)
    (hCase : Admission config s q now s' result) : InOrder now.nanos s' := by
  intro p e he
  have hTouched := hCase.touched hAccepted p
  rw [he] at hTouched
  generalize hBefore : s.peers[p]? = before at hTouched
  cases hTouched with
  | same =>
    obtain ⟨hSeen, hLast⟩ := hOrder p e hBefore
    exact ⟨hSeen, Nat.le_trans hLast hLatest⟩
  | refused =>
    obtain ⟨-, hLast⟩ := hOrder.found hAccepted hSound hLatest (.inl hBefore)
    refine ⟨?_, Nat.le_refl _⟩
    rw [refill_lastRefill]
    exact Nat.max_le.mpr ⟨hLast, Nat.le_refl _⟩
  | paid _ hFound =>
    obtain ⟨-, hLast⟩ := hOrder.found hAccepted hSound hLatest (hBefore ▸ hFound)
    refine ⟨?_, Nat.le_refl _⟩
    rw [consume_lastRefill, refill_lastRefill]
    exact Nat.max_le.mpr ⟨hLast, Nat.le_refl _⟩

/-- After an admission the peer's bucket was refilled at that instant, and the token it paid is
missing. -/
theorem Admission.admitted_entry (hAccepted : config.Accepted) (hSound : Sound config s)
    (hOrder : InOrder latest s) (hLatest : latest ≤ now.nanos)
    (hCase : Admission config s q now s' (.ok ())) :
    ∃ entry : PeerBucket, s'.peers[q]? = some entry ∧ entry.bucket.lastRefill.nanos = now.nanos ∧
      tokenScale + entry.bucket.tokens ≤ config.perIpBurst * tokenScale := by
  have hTouched := hCase.touched hAccepted q
  generalize hBefore : s.peers[q]? = before at hTouched
  generalize s'.peers[q]? = after at hTouched ⊢
  cases hTouched with
  | same hFree | dropped hFree | refused hFree => exact absurd ⟨rfl, rfl⟩ hFree
  | paid _ hFound hToken =>
    obtain ⟨hOf, hLast⟩ := hOrder.found hAccepted hSound hLatest (hBefore ▸ hFound)
    refine ⟨_, rfl, ?_, ?_⟩
    · rw [consume_lastRefill, refill_lastRefill]
      omega
    · have hPaid := retryAfter_eq_none hToken
      have hLevel := (hOf.refill now).tokens_le
      rw [(hOf.refill now).capacity_eq] at hLevel
      rw [consume_tokens]
      omega

end RateLimiterState

namespace Served

variable {config : HttpRequestRateLimitConfig} {s s' : Served} {call : IpAddr × Instant}

/-- The calls come in the order of their instants. -/
def NotBefore (s : Served) (call : IpAddr × Instant) : Prop :=
  s.limiter.global.lastRefill.nanos ≤ call.2.nanos

instance (s : Served) (call : IpAddr × Instant) : Decidable (NotBefore s call) :=
  inferInstanceAs (Decidable (_ ≤ _))

/-- The admissions of one peer in a list. -/
def countOf (p : IpAddr) (l : List (IpAddr × Instant)) : Nat := l.countP fun call => call.1 = p

/-- The account of every peer from each of its admissions on, and the bound of each window
from one to another. -/
structure Windows (config : HttpRequestRateLimitConfig) (s : Served) : Prop where
  sound : Sound config s.limiter
  inOrder : InOrder s.limiter.global.lastRefill.nanos s.limiter
  covered : ∀ (after : List (IpAddr × Instant)) (p : IpAddr) (t : Instant)
    (before : List (IpAddr × Instant)), s.admissions = after ++ (p, t) :: before →
    Covered config s.limiter.global.lastRefill.nanos (countOf p after + 1) t.nanos
      s.limiter.peers[p]?
  bounded : ∀ (after : List (IpAddr × Instant)) (p : IpAddr) (t₂ : Instant)
    (between : List (IpAddr × Instant)) (t₁ : Instant) (before : List (IpAddr × Instant)),
    s.admissions = after ++ (p, t₂) :: (between ++ (p, t₁) :: before) →
    (countOf p between + 2) * tokenScale ≤ config.perIpBurst * tokenScale +
      config.perIpRequestsPerSecond * (t₂.nanos - t₁.nanos)

theorem Windows.newAt (hAccepted : config.Accepted) (creation : Instant) :
    Windows config (newAt config creation) where
  sound := Sound.newAt hAccepted creation
  inOrder p e he := by
    have hNone : (RateLimiterState.newAt config creation).peers[p]? = none :=
      ExtTreeMap.getElem?_empty
    cases hNone.symm.trans he
  covered after p t before h := by
    have hNil : (Served.newAt config creation).admissions = [] := rfl
    simp [hNil] at h
  bounded after p t₂ between t₁ before h := by
    have hNil : (Served.newAt config creation).admissions = [] := rfl
    simp [hNil] at h

theorem Windows.serve (hFills : FillsWhileIdle config) (hAccepted : config.Accepted)
    (h : Windows config s) (hLatest : NotBefore s call)
    (hStep : Served.serve config s call = some s') : Windows config s' := by
  obtain ⟨q, now⟩ := call
  obtain ⟨_, hAdmission⟩ := serve_admission hStep
  have hLast : s'.limiter.global.lastRefill.nanos = now.nanos :=
    hAdmission.lastRefill.trans (Nat.max_eq_right hLatest)
  have hSound := h.sound.tryAdmitAt hAccepted hAdmission
  have hInOrder := hAdmission.inOrder hAccepted h.sound h.inOrder hLatest
  rcases serve_cases hStep with ⟨_, hCase, hSame⟩ | ⟨hCase, hMore⟩
  · refine ⟨hSound, hLast ▸ hInOrder, fun after p t before hSplit => ?_,
      fun after p t₂ between t₁ before hSplit => h.bounded after p t₂ between t₁ before
        (hSame ▸ hSplit)⟩
    have hCovered := hCase.covered hFills hAccepted h.sound h.inOrder hLatest p
      (h.covered after p t before (hSame ▸ hSplit))
    rw [if_neg (by simp)] at hCovered
    rw [hLast]
    exact hCovered
  · obtain ⟨_, hEntry, hRefill, hPaid⟩ :=
      hCase.admitted_entry hAccepted h.sound h.inOrder hLatest
    -- an older window grows by the new admission if that is the peer's own
    have hGrown : ∀ after p t before, s.admissions = after ++ (p, t) :: before →
        Covered config now.nanos (countOf p ((q, now) :: after) + 1) t.nanos
          s'.limiter.peers[p]? := by
      intro after p t before hSplit
      have hCovered := hCase.covered hFills hAccepted h.sound h.inOrder hLatest p
        (h.covered after p t before hSplit)
      have hCount : countOf p ((q, now) :: after) + 1 =
          if (Except.ok () : Except HttpRateLimitRejection Unit) = .ok () ∧ q = p
          then countOf p after + 1 + 1 else countOf p after + 1 := by
        unfold countOf
        rw [countP_cons]
        by_cases hq : q = p <;> simp [hq]
      rw [hCount]
      exact hCovered
    refine ⟨hSound, hLast ▸ hInOrder, fun after p t before hSplit => ?_,
      fun after p t₂ between t₁ before hSplit => ?_⟩
    · rw [hMore] at hSplit
      rw [hLast]
      cases after with
      | nil =>
        -- the window that starts with the new admission
        obtain ⟨hHead, -⟩ := List.cons.inj hSplit
        cases hHead
        rw [hEntry]
        refine ⟨Nat.le_of_eq hRefill.symm, ?_⟩
        rw [hRefill, Nat.sub_self, Nat.mul_zero, Nat.add_zero]
        simpa [countOf] using hPaid
      | cons _ after =>
        obtain ⟨rfl, hRest⟩ := List.cons.inj hSplit
        exact hGrown after p t before hRest
    · rw [hMore] at hSplit
      cases after with
      | nil =>
        -- the window that ends with the new admission
        obtain ⟨hHead, hRest⟩ := List.cons.inj hSplit
        cases hHead
        have hCovered := hGrown between q t₁ before hRest
        rw [hEntry] at hCovered
        obtain ⟨-, hBound⟩ := hCovered
        rw [hRefill] at hBound
        have hCount : countOf q ((q, now) :: between) + 1 = countOf q between + 2 := by
          simp [countOf]
        rw [hCount] at hBound
        exact Nat.le_trans (Nat.le_add_right _ _) hBound
      | cons _ after =>
        obtain ⟨-, hRest⟩ := List.cons.inj hSplit
        exact h.bounded after p t₂ between t₁ before hRest

end Served

open Served in
/-- For every validated configuration whose idle time fills a bucket, and every run whose calls
come in the order of their instants: between two admissions of a peer, both counted, at most
`per_ip_burst + 1` and what its rate gives in that time are admitted of it, whatever idle
peers have been dropped and have come back. -/
theorem peer_admissions_bounded {config : HttpRequestRateLimitConfig}
    (hValid : config.validate = .ok ()) (hFills : FillsWhileIdle config) {creation : Instant}
    {calls : List (IpAddr × Instant)} {s : Served}
    (hRun : exec (serve config) (newAt config creation) calls = some s)
    (hOrder : Guarded (serve config) NotBefore (newAt config creation) calls)
    (after : List (IpAddr × Instant)) (peer : IpAddr) (t₂ : Instant)
    (between : List (IpAddr × Instant)) (t₁ : Instant) (before : List (IpAddr × Instant))
    (hSplit : s.admissions = after ++ (peer, t₂) :: (between ++ (peer, t₁) :: before)) :
    (countOf peer between + 2) * tokenScale ≤ (config.perIpBurst + 1) * tokenScale +
      config.perIpRequestsPerSecond * (t₂.nanos - t₁.nanos) := by
  have hAccepted := accepted hValid
  have hWindows : Windows config s :=
    exec_induction_guarded (P := Windows config)
      (fun _ _ _ h hLatest hStep => h.serve hFills hAccepted hLatest hStep)
      (Windows.newAt hAccepted creation) hOrder hRun
  have hBound := hWindows.bounded after peer t₂ between t₁ before hSplit
  have hOne := Nat.add_mul config.perIpBurst 1 tokenScale
  omega

namespace RateExample

/-- Idle for a millisecond, a peer is forgotten; its bucket would fill in two seconds. -/
def impatient : HttpRequestRateLimitConfig := { config with peerIdleTtl := 1000000 }

def millisecond : Instant := ⟨1000000, by decide⟩

/-- The peer uses its burst, is dropped when another peer comes, and uses a new one. -/
def impatientCalls : List (IpAddr × Instant) :=
  [(peerA, seconds 0), (peerA, seconds 0), (peerB, millisecond), (peerA, millisecond),
    (peerA, millisecond)]

/-- A call in the middle comes five seconds early. -/
def backwardCalls : List (IpAddr × Instant) :=
  [(peerA, seconds 0), (peerA, seconds 0), (peerA, seconds 5), (peerA, seconds 0)]

end RateExample

open Served RateExample in
/-- A peer whose bucket was dropped for another one's call comes back after the idle time. -/
theorem peer_admissions_bounded_idle :
    ∃ s, exec (serve config) (newAt config (seconds 0))
        [(peerA, seconds 0), (peerB, seconds 300), (peerA, seconds 300)] = some s ∧
      s.admissions = [] ++ (peerA, seconds 300) ::
        ([(peerB, seconds 300)] ++ [(peerA, seconds 0)]) ∧
      (countOf peerA [(peerB, seconds 300)] + 2) * tokenScale ≤
        (config.perIpBurst + 1) * tokenScale +
          config.perIpRequestsPerSecond * ((seconds 300).nanos - (seconds 0).nanos) := by
  obtain ⟨s, hExec, hSplit⟩ : ∃ s, exec (serve config) (newAt config (seconds 0))
      [(peerA, seconds 0), (peerB, seconds 300), (peerA, seconds 300)] = some s ∧ s.admissions =
        [] ++ (peerA, seconds 300) :: ([(peerB, seconds 300)] ++ [(peerA, seconds 0)]) := by
    decide +kernel
  have hFills : FillsWhileIdle config := by
    unfold FillsWhileIdle
    decide +kernel
  exact ⟨s, hExec, hSplit, peer_admissions_bounded (by decide) hFills hExec (by decide +kernel)
    [] peerA (seconds 300) [(peerB, seconds 300)] (seconds 0) [] hSplit⟩

open Served RateExample in
/-- Both conditions are needed. With the idle time of a millisecond, in order, four requests
of a peer pass within it; and with a call that goes back, four pass between two admissions at
one instant. The bound is three, and a thousandth. -/
theorem peer_admissions_unbounded : (impatient.validate = .ok () ∧
      Guarded (serve impatient) NotBefore (newAt impatient (seconds 0)) impatientCalls ∧
      ∃ s, exec (serve impatient) (newAt impatient (seconds 0)) impatientCalls = some s ∧
        s.admissions = [] ++ (peerA, millisecond) ::
          ([(peerA, millisecond), (peerB, millisecond), (peerA, seconds 0)] ++
            [(peerA, seconds 0)]) ∧
        (impatient.perIpBurst + 1) * tokenScale +
            impatient.perIpRequestsPerSecond * (millisecond.nanos - (seconds 0).nanos) <
          (countOf peerA [(peerA, millisecond), (peerB, millisecond), (peerA, seconds 0)] + 2) *
            tokenScale) ∧
    (config.validate = .ok () ∧ FillsWhileIdle config ∧
      ∃ s, exec (serve config) (newAt config (seconds 0)) backwardCalls = some s ∧
        s.admissions = [] ++ (peerA, seconds 0) ::
          ([(peerA, seconds 5), (peerA, seconds 0)] ++ [(peerA, seconds 0)]) ∧
        (config.perIpBurst + 1) * tokenScale +
            config.perIpRequestsPerSecond * ((seconds 0).nanos - (seconds 0).nanos) <
          (countOf peerA [(peerA, seconds 5), (peerA, seconds 0)] + 2) * tokenScale) := by
  have hFills : FillsWhileIdle config := by
    unfold FillsWhileIdle
    decide +kernel
  exact ⟨by decide +kernel, by decide, hFills, by decide +kernel⟩

end TunnelProxy.Edge
