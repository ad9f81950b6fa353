import TunnelProxy.Common.Identity
import TunnelProxy.Lib.ExactBucket
import TunnelProxy.Lib.TreeMap

/-!
# Request-rate admission of the HTTPS ingress

One bucket for all requests and one for each tracked peer address. A peer that has no
bucket gets a full one, after the idle peers at the front of the rotation have been
dropped; a table that is full even then refuses it.

Tokens are scaled by a thousand million, so that a rate per second adds whole units per
nanosecond. The source computes them with saturating 128-bit arithmetic; on a validated
configuration it is the exact arithmetic of `ExactBucket` (`exact_refill`,
`retryAfter_eq`).

* `tryAdmitAt_isSome` — neither `expect` of a call can fail
* `Admission`, `tryAdmitAt_cases` — what a call does, one case per way it ends
* `Sound`, `Sound.tryAdmitAt` — the table and its rotation hold the same peers
-/

namespace TunnelProxy.Edge

open Std Common ExtTreeMap List

/-- `IpAddr`: four octets or sixteen. -/
@[ext]
structure IpAddr where
  octets : List UInt8
  length_eq : octets.length = 4 ∨ octets.length = 16
deriving DecidableEq

namespace IpAddr

instance : Ord IpAddr := ⟨fun a b => compare a.octets b.octets⟩

instance : TransOrd IpAddr where
  eq_swap {a b} := OrientedOrd.eq_swap (a := a.octets) (b := b.octets)
  isLE_trans {a b c} := TransOrd.isLE_trans (a := a.octets) (b := b.octets) (c := c.octets)

instance : LawfulEqOrd IpAddr where
  compare_self {a} := ReflOrd.compare_self (a := a.octets)
  eq_of_compare {_ _} h := IpAddr.ext (LawfulEqOrd.eq_of_compare h)

end IpAddr

/-- A reading of the monotonic clock in nanoseconds. The distance of two readings is a
`Duration`, whose seconds are a `u64`. -/
structure Instant where
  nanos : Nat
  lt : nanos < 2 ^ 64 * 1000000000
deriving DecidableEq

def saturatingAdd128 (a b : Nat) : Nat := min (a + b) (2 ^ 128 - 1)

def saturatingMul128 (a b : Nat) : Nat := min (a * b) (2 ^ 128 - 1)

/-! ## Configuration -/

-- irreducible: a subtraction of it must not be unfolded step by step
@[irreducible] def tokenScale : Nat := 1000000000

def peerCleanupBatch : Nat := 64

def maxHttpRequestsPerSecond : Nat := 1000000

def maxHttpRequestBurst : Nat := 1000000

def maxHttpRateLimitPeers : Nat := 65536

/-- Durations are in nanoseconds. -/
def minHttpRateLimitIdle : Nat := 1000000

def maxHttpRateLimitIdle : Nat := 24 * 60 * 60 * 1000000000

structure HttpRequestRateLimitConfig where
  globalRequestsPerSecond : Nat := 100
  globalBurst : Nat := 200
  perIpRequestsPerSecond : Nat := 20
  perIpBurst : Nat := 40
  maxTrackedIps : Nat := 4096
  peerIdleTtl : Nat := 5 * 60 * 1000000000
deriving DecidableEq

inductive HttpRequestRateLimitConfigError where
  | invalidGlobalRate
  | invalidGlobalBurst
  | invalidPerIpRate
  | invalidPerIpBurst
  | perIpRateExceedsGlobal
  | perIpBurstExceedsGlobal
  | invalidTrackedIpLimit
  | invalidPeerIdleTtl
deriving DecidableEq

def validateQuota (rate burst : Nat) (invalidRate invalidBurst : HttpRequestRateLimitConfigError) :
    Except HttpRequestRateLimitConfigError Unit :=
  if rate = 0 ∨ maxHttpRequestsPerSecond < rate then .error invalidRate
  else if burst < rate ∨ maxHttpRequestBurst < burst then .error invalidBurst
  else .ok ()

def HttpRequestRateLimitConfig.validate (config : HttpRequestRateLimitConfig) :
    Except HttpRequestRateLimitConfigError Unit := do
  validateQuota config.globalRequestsPerSecond config.globalBurst .invalidGlobalRate
    .invalidGlobalBurst
  validateQuota config.perIpRequestsPerSecond config.perIpBurst .invalidPerIpRate
    .invalidPerIpBurst
  if config.globalRequestsPerSecond < config.perIpRequestsPerSecond then
    .error .perIpRateExceedsGlobal
  else if config.globalBurst < config.perIpBurst then .error .perIpBurstExceedsGlobal
  else if config.maxTrackedIps = 0 ∨ maxHttpRateLimitPeers < config.maxTrackedIps then
    .error .invalidTrackedIpLimit
  else if config.peerIdleTtl < minHttpRateLimitIdle ∨ maxHttpRateLimitIdle < config.peerIdleTtl then
    .error .invalidPeerIdleTtl
  else .ok ()

/-- The quotas that `validate_quota` lets pass. -/
structure IsQuota (rate burst : Nat) : Prop where
  pos : 0 < rate
  rate_le : rate ≤ maxHttpRequestsPerSecond
  rate_le_burst : rate ≤ burst
  burst_le : burst ≤ maxHttpRequestBurst

theorem validateQuota_eq_ok {rate burst : Nat} {e e' : HttpRequestRateLimitConfigError} :
    validateQuota rate burst e e' = .ok () ↔ IsQuota rate burst := by
  unfold validateQuota
  constructor
  · intro h
    split_ifs at h with hRate hBurst
    exact ⟨by omega, by omega, by omega, by omega⟩
  · intro h
    have := h.pos
    have := h.rate_le
    have := h.rate_le_burst
    have := h.burst_le
    rw [if_neg (by omega), if_neg (by omega)]

/-- What the configurations that pass have in common, as far as the limiter uses it. -/
structure HttpRequestRateLimitConfig.Accepted (config : HttpRequestRateLimitConfig) : Prop where
  global : IsQuota config.globalRequestsPerSecond config.globalBurst
  perIp : IsQuota config.perIpRequestsPerSecond config.perIpBurst
  tracked_pos : 0 < config.maxTrackedIps

variable {config : HttpRequestRateLimitConfig}

theorem HttpRequestRateLimitConfig.accepted (h : config.validate = .ok ()) : config.Accepted := by
  unfold validate at h
  cases hGlobal : validateQuota config.globalRequestsPerSecond config.globalBurst
      .invalidGlobalRate .invalidGlobalBurst with
  | error e => rw [hGlobal] at h; cases h
  | ok _ =>
    cases hPerIp : validateQuota config.perIpRequestsPerSecond config.perIpBurst
        .invalidPerIpRate .invalidPerIpBurst with
    | error e => rw [hGlobal, hPerIp] at h; cases h
    | ok _ =>
      rw [hGlobal, hPerIp] at h
      simp only [bind, Except.bind] at h
      split_ifs at h with _ _ hTracked
      exact ⟨validateQuota_eq_ok.mp hGlobal, validateQuota_eq_ok.mp hPerIp, by omega⟩

/-- The defaults pass their own check. -/
example : ({} : HttpRequestRateLimitConfig).validate = .ok () := by decide

/-! ## Buckets -/

structure TokenBucket where
  rate : Nat
  capacity : Nat
  tokens : Nat
  lastRefill : Instant
deriving DecidableEq

namespace TokenBucket

def new (rate burst : Nat) (now : Instant) : TokenBucket :=
  ⟨rate, burst * tokenScale, burst * tokenScale, now⟩

def refill (b : TokenBucket) (now : Instant) : TokenBucket :=
  if now.nanos ≤ b.lastRefill.nanos then b
  else
    let elapsed := now.nanos - b.lastRefill.nanos
    let replenished := saturatingMul128 elapsed b.rate
    { b with
      tokens := min (saturatingAdd128 b.tokens replenished) b.capacity
      lastRefill := now }

/-- In nanoseconds, clamped to a `u64`. -/
def retryAfter (b : TokenBucket) : Option Nat :=
  if tokenScale ≤ b.tokens then none
  else
    let deficit := tokenScale - b.tokens
    let nanos := saturatingAdd128 deficit (b.rate - 1) / b.rate
    some (min nanos (2 ^ 64 - 1))

def consume (b : TokenBucket) : TokenBucket := { b with tokens := b.tokens - tokenScale }

-- `unfold` first: comparing the buckets themselves would compare their tokens
@[simp] theorem consume_rate (b : TokenBucket) : b.consume.rate = b.rate := by
  unfold consume
  rfl

@[simp] theorem consume_capacity (b : TokenBucket) : b.consume.capacity = b.capacity := by
  unfold consume
  rfl

@[simp] theorem consume_tokens (b : TokenBucket) : b.consume.tokens = b.tokens - tokenScale := by
  unfold consume
  rfl

@[simp] theorem consume_lastRefill (b : TokenBucket) : b.consume.lastRefill = b.lastRefill := by
  unfold consume
  rfl

/-- The bucket over unbounded numbers that it stands for. -/
def exact (b : TokenBucket) : ExactBucket := ⟨b.rate, b.capacity, b.tokens, b.lastRefill.nanos⟩

/-- A bucket of a quota. -/
structure Of (rate burst : Nat) (b : TokenBucket) : Prop where
  quota : IsQuota rate burst
  rate_eq : b.rate = rate
  capacity_eq : b.capacity = burst * tokenScale
  tokens_le : b.tokens ≤ b.capacity

variable {rate burst : Nat} {b : TokenBucket}

theorem Of.new (h : IsQuota rate burst) (now : Instant) : (new rate burst now).Of rate burst :=
  ⟨h, rfl, rfl, Nat.le_refl _⟩

section

variable (h : b.Of rate burst)
include h

theorem Of.capacity_le : b.capacity ≤ 1000000 * 1000000000 := by
  rw [h.capacity_eq, tokenScale]
  exact Nat.mul_le_mul_right _ h.quota.burst_le

theorem Of.rate_pos : 0 < b.rate := h.rate_eq ▸ h.quota.pos

/-- A whole token fits: no quota has an empty burst. -/
theorem Of.scale_le_capacity : tokenScale ≤ b.capacity := by
  have hPos : 1 ≤ burst := Nat.le_trans h.quota.pos h.quota.rate_le_burst
  calc tokenScale = 1 * tokenScale := (Nat.one_mul _).symm
    _ ≤ burst * tokenScale := Nat.mul_le_mul_right _ hPos
    _ = b.capacity := h.capacity_eq.symm

/-- **Nothing saturates**: the refill of a bucket of a quota is the exact one. -/
theorem exact_refill (now : Instant) :
    (b.refill now).exact = b.exact.refill now.nanos := by
  unfold refill ExactBucket.refill
  by_cases hLe : now.nanos ≤ b.lastRefill.nanos
  · rw [if_pos hLe, if_pos (show now.nanos ≤ b.exact.filledAt from hLe)]
  · rw [if_neg hLe, if_neg (show ¬ now.nanos ≤ b.exact.filledAt from hLe)]
    have hRate : b.rate ≤ 1000000 := h.rate_eq ▸ h.quota.rate_le
    have hCapacity := h.capacity_le
    have hTokens := h.tokens_le
    have hElapsed : now.nanos - b.lastRefill.nanos ≤ 2 ^ 64 * 1000000000 :=
      Nat.le_trans (Nat.sub_le _ _) (Nat.le_of_lt now.lt)
    have hGain : (now.nanos - b.lastRefill.nanos) * b.rate ≤ 2 ^ 64 * 1000000000 * 1000000 :=
      Nat.mul_le_mul hElapsed hRate
    show (⟨b.rate, b.capacity, _, now.nanos⟩ : ExactBucket) = ⟨b.rate, b.capacity, _, now.nanos⟩
    congr 1
    show min (saturatingAdd128 b.tokens (saturatingMul128 _ _)) b.capacity =
      min b.capacity (b.tokens + (now.nanos - b.lastRefill.nanos) * b.rate)
    unfold saturatingAdd128 saturatingMul128
    omega

theorem retryAfter_eq :
    b.retryAfter = if tokenScale ≤ b.tokens then none else some (b.exact.wait tokenScale) := by
  unfold retryAfter
  split_ifs with hToken
  · rfl
  · have hRate : b.rate ≤ 1000000 := h.rate_eq ▸ h.quota.rate_le
    have hSmall : tokenScale - b.tokens + (b.rate - 1) ≤ 2 ^ 64 - 1 := by
      unfold tokenScale
      omega
    have hQuotient : (tokenScale - b.tokens + (b.rate - 1)) / b.rate ≤ 2 ^ 64 - 1 :=
      Nat.le_trans (Nat.div_le_self _ _) hSmall
    show some (min (saturatingAdd128 (tokenScale - b.tokens) (b.rate - 1) / b.rate) _) =
      some ((tokenScale - b.tokens + (b.rate - 1)) / b.rate)
    rw [saturatingAdd128, Nat.min_eq_left (Nat.le_trans hSmall (by omega)),
      Nat.min_eq_left hQuotient]

omit h in
theorem retryAfter_eq_none (h : b.retryAfter = none) : tokenScale ≤ b.tokens := by
  by_contra hShort
  rw [retryAfter, if_neg hShort] at h
  cases h

theorem Of.retryAfter_eq_some {wait : Nat} (hRetry : b.retryAfter = some wait) :
    b.tokens < tokenScale ∧ wait = b.exact.wait tokenScale := by
  rw [retryAfter_eq h] at hRetry
  split_ifs at hRetry with hToken
  exact ⟨Nat.lt_of_not_le hToken, (Option.some.inj hRetry).symm⟩

/-! ### Fields of a refilled bucket -/

omit h in
theorem refill_lastRefill (b : TokenBucket) (now : Instant) :
    (b.refill now).lastRefill.nanos = max b.lastRefill.nanos now.nanos := by
  unfold refill
  split_ifs with hLe
  · exact (Nat.max_eq_left hLe).symm
  · exact (Nat.max_eq_right (Nat.le_of_not_le hLe)).symm

omit h in
@[simp] theorem refill_rate (b : TokenBucket) (now : Instant) : (b.refill now).rate = b.rate := by
  unfold refill
  split_ifs <;> rfl

omit h in
@[simp] theorem refill_capacity (b : TokenBucket) (now : Instant) :
    (b.refill now).capacity = b.capacity := by
  unfold refill
  split_ifs <;> rfl

omit h in
theorem exact_tokens (b : TokenBucket) : b.exact.tokens = b.tokens := rfl

theorem Of.refill (now : Instant) : (b.refill now).Of rate burst where
  quota := h.quota
  rate_eq := (refill_rate b now).trans h.rate_eq
  capacity_eq := (refill_capacity b now).trans h.capacity_eq
  tokens_le := by
    rw [refill_capacity, ← exact_tokens, exact_refill h]
    exact ExactBucket.refill_tokens_le_capacity (b := b.exact) h.tokens_le now.nanos

theorem Of.tokens_le_refill (now : Instant) :
    b.tokens ≤ (b.refill now).tokens := by
  calc b.tokens = b.exact.tokens := rfl
    _ ≤ (b.exact.refill now.nanos).tokens := ExactBucket.tokens_le_refill h.tokens_le now.nanos
    _ = (b.refill now).tokens := by rw [← exact_refill h, exact_tokens]

theorem Of.consume : b.consume.Of rate burst where
  quota := h.quota
  rate_eq := b.consume_rate.trans h.rate_eq
  capacity_eq := b.consume_capacity.trans h.capacity_eq
  tokens_le := by
    rw [consume_tokens, consume_capacity]
    exact Nat.le_trans (Nat.sub_le _ _) h.tokens_le

end

end TokenBucket

/-! ## The limiter -/

inductive HttpRateLimitRejection where
  | global (retryAfter : Nat)
  | perIp (retryAfter : Nat)
  | peerTableFull (retryAfter : Nat)
deriving DecidableEq

structure PeerBucket where
  bucket : TokenBucket
  lastSeen : Instant
deriving DecidableEq

structure RateLimiterState where
  global : TokenBucket
  peers : ExtTreeMap IpAddr PeerBucket
  peerOrder : List IpAddr
  peakTrackedPeerIps : Nat

namespace RateLimiterState

/-- The state of `HttpRequestRateLimiter::at`. -/
def newAt (config : HttpRequestRateLimitConfig) (now : Instant) : RateLimiterState where
  global := .new config.globalRequestsPerSecond config.globalBurst now
  peers := ∅
  peerOrder := []
  peakTrackedPeerIps := 0

/-- The loop of `cleanup_idle_peers`, with the number of candidates to come. -/
def cleanup (now : Instant) (idleTtl : Nat) : Nat → RateLimiterState → RateLimiterState
  | 0, s => s
  | candidates + 1, s =>
    match s.peerOrder with
    | [] => s
    | peer :: rest =>
      let expired := s.peers[peer]?.any fun entry =>
        decide (idleTtl ≤ now.nanos - entry.lastSeen.nanos)
      if expired then
        cleanup now idleTtl candidates { s with peers := s.peers.erase peer, peerOrder := rest }
      else cleanup now idleTtl candidates { s with peerOrder := rest ++ [peer] }

def cleanupIdlePeers (s : RateLimiterState) (now : Instant) (idleTtl : Nat) : RateLimiterState :=
  cleanup now idleTtl (min s.peerOrder.length peerCleanupBatch) s

/-- Makes sure that the peer has a bucket. -/
def track (config : HttpRequestRateLimitConfig) (s : RateLimiterState) (peer : IpAddr)
    (now : Instant) : RateLimiterState × Except HttpRateLimitRejection Unit :=
  if peer ∈ s.peers then (s, .ok ())
  else
    let s := s.cleanupIdlePeers now config.peerIdleTtl
    if config.maxTrackedIps ≤ s.peers.size then
      (s, .error (.peerTableFull (min config.peerIdleTtl 60000000000)))
    else
      let entry := ⟨.new config.perIpRequestsPerSecond config.perIpBurst now, now⟩
      let peers := s.peers.insert peer entry
      ({ s with
        peers
        peerOrder := s.peerOrder ++ [peer]
        peakTrackedPeerIps := max s.peakTrackedPeerIps peers.size }, .ok ())

/-- Takes one token of the peer's bucket and one of the global bucket. `none` is the failure
of an `expect`: the peer has no bucket. -/
def draw (s : RateLimiterState) (peer : IpAddr) (now : Instant) :
    Option (RateLimiterState × Except HttpRateLimitRejection Unit) :=
  s.peers[peer]?.map fun entry =>
    let bucket := entry.bucket.refill now
    match bucket.retryAfter with
    | some retryAfter =>
      ({ s with peers := s.peers.insert peer ⟨bucket, now⟩ }, .error (.perIp retryAfter))
    | none =>
      ({ s with
        global := s.global.consume
        peers := s.peers.insert peer ⟨bucket.consume, now⟩ }, .ok ())

def tryAdmitAt (config : HttpRequestRateLimitConfig) (s : RateLimiterState) (peer : IpAddr)
    (now : Instant) : Option (RateLimiterState × Except HttpRateLimitRejection Unit) :=
  let s := { s with global := s.global.refill now }
  match s.global.retryAfter with
  | some retryAfter => some (s, .error (.global retryAfter))
  | none =>
    match track config s peer now with
    | (s, .error rejection) => some (s, .error rejection)
    | (s, .ok ()) => s.draw peer now


/-! ## What a call does -/

/-- The rotation lists each tracked peer once. -/
structure Listed (s : RateLimiterState) : Prop where
  nodup : s.peerOrder.Nodup
  mem_iff : ∀ peer, peer ∈ s.peerOrder ↔ peer ∈ s.peers

/-- `s'` is `s` without some of the peers that were idle at `now`. -/
structure Pruned (now : Instant) (idleTtl : Nat) (s s' : RateLimiterState) : Prop where
  global : s'.global = s.global
  peers : ∀ peer : IpAddr, s'.peers[peer]? = s.peers[peer]? ∨ s'.peers[peer]? = none ∧
    ∃ entry : PeerBucket, s.peers[peer]? = some entry ∧ idleTtl ≤ now.nanos - entry.lastSeen.nanos
  size : s'.peers = s.peers ∨ s'.peers.size < s.peers.size
  listed : s.Listed → s'.Listed

variable {now : Instant} {idleTtl : Nat} {rest : List IpAddr}
  {result : Except HttpRateLimitRejection Unit}

theorem Pruned.refl (s : RateLimiterState) : Pruned now idleTtl s s :=
  ⟨rfl, fun _ => .inl rfl, .inl rfl, id⟩

variable {s₁ s : RateLimiterState} {peer : IpAddr}

theorem Pruned.trans {s₀ s₂ : RateLimiterState} (h : Pruned now idleTtl s₀ s₁)
    (h' : Pruned now idleTtl s₁ s₂) : Pruned now idleTtl s₀ s₂ where
  global := h'.global.trans h.global
  peers peer := by
    rcases h'.peers peer with hSame | ⟨hGone, entry, hEntry, hIdle⟩
    · rw [hSame]
      exact h.peers peer
    · rcases h.peers peer with hBefore | ⟨hNone, -⟩
      · exact .inr ⟨hGone, entry, hBefore ▸ hEntry, hIdle⟩
      · rw [hNone] at hEntry
        cases hEntry
  size := by
    rcases h'.size with hSame | hLess
    · rw [hSame]
      exact h.size
    · rcases h.size with hSame | hLess'
      · exact .inr (hSame ▸ hLess)
      · exact .inr (Nat.lt_trans hLess hLess')
  listed hListed := h'.listed (h.listed hListed)

/-- The front of the rotation is idle and goes. -/
theorem Pruned.remove {entry : PeerBucket}
    (hOrder : s.peerOrder = peer :: rest) (hEntry : s.peers[peer]? = some entry)
    (hIdle : idleTtl ≤ now.nanos - entry.lastSeen.nanos) :
    Pruned now idleTtl s { s with peers := s.peers.erase peer, peerOrder := rest } where
  global := rfl
  peers p := by
    show (s.peers.erase peer)[p]? = _ ∨ (s.peers.erase peer)[p]? = none ∧ _
    rw [getElem?_erase]
    split_ifs with hp
    · cases Std.compare_eq_iff_eq.mp hp
      exact .inr ⟨rfl, entry, hEntry, hIdle⟩
    · exact .inl rfl
  size := by
    have hMem : peer ∈ s.peers := TreeMap.mem_iff_exists.mpr ⟨entry, hEntry⟩
    have hPos : s.peers.size ≠ 0 := fun hZero => by
      rw [eq_empty_iff_size_eq_zero.mpr hZero] at hMem
      simp at hMem
    refine .inr ?_
    show (s.peers.erase peer).size < s.peers.size
    rw [size_erase, if_pos (contains_iff_mem.mpr hMem)]
    omega
  listed h := by
    have hNodup := nodup_cons.mp (hOrder ▸ h.nodup)
    refine ⟨hNodup.2, fun p => ?_⟩
    show p ∈ rest ↔ p ∈ s.peers.erase peer
    rw [mem_erase, ← h.mem_iff, hOrder, mem_cons]
    constructor
    · exact fun hp => ⟨fun hEq => hNodup.1 (Std.compare_eq_iff_eq.mp hEq ▸ hp), .inr hp⟩
    · rintro ⟨hNe, rfl | hp⟩
      · exact absurd (ReflOrd.compare_self) hNe
      · exact hp

/-- The front of the rotation goes to its back. -/
theorem Pruned.rotate (hOrder : s.peerOrder = peer :: rest) :
    Pruned now idleTtl s { s with peerOrder := rest ++ [peer] } where
  global := rfl
  peers _ := .inl rfl
  size := .inl rfl
  listed h := by
    have hPerm := perm_append_singleton peer rest
    refine ⟨hPerm.nodup_iff.mpr (hOrder ▸ h.nodup), fun p => ?_⟩
    show p ∈ rest ++ [peer] ↔ p ∈ s.peers
    rw [hPerm.mem_iff, ← hOrder]
    exact h.mem_iff p

theorem cleanup_pruned (now : Instant) (idleTtl candidates : Nat) (s : RateLimiterState) :
    Pruned now idleTtl s (cleanup now idleTtl candidates s) := by
  induction candidates generalizing s with
  | zero => exact .refl s
  | succ candidates ih =>
    unfold cleanup
    split
    · exact .refl s
    · rename_i hOrder
      dsimp only
      split_ifs with hExpired
      · obtain ⟨_, hEntry, hIdle⟩ := (Option.any_eq_true _ _).mp hExpired
        exact (Pruned.remove hOrder hEntry (of_decide_eq_true hIdle)).trans (ih _)
      · exact (Pruned.rotate hOrder).trans (ih _)

/-- The states in which the peer has the bucket that the call draws from. -/
inductive Tracked (config : HttpRequestRateLimitConfig) (s : RateLimiterState) (peer : IpAddr)
    (now : Instant) : RateLimiterState → PeerBucket → Prop where
  | known (entry : PeerBucket) (hEntry : s.peers[peer]? = some entry) :
      Tracked config s peer now s entry
  | fresh (s₀ : RateLimiterState) (hNew : peer ∉ s.peers)
      (hPruned : Pruned now config.peerIdleTtl s s₀)
      (hRoom : s₀.peers.size < config.maxTrackedIps) (peak : Nat) :
      Tracked config s peer now
        { s₀ with
          peers := s₀.peers.insert peer
            ⟨.new config.perIpRequestsPerSecond config.perIpBurst now, now⟩
          peerOrder := s₀.peerOrder ++ [peer]
          peakTrackedPeerIps := peak }
        ⟨.new config.perIpRequestsPerSecond config.perIpBurst now, now⟩

/-- The state after the refill of the global bucket. -/
def refilled (s : RateLimiterState) (now : Instant) : RateLimiterState :=
  { s with global := s.global.refill now }

/-- How a call can end, and in which state. -/
inductive Admission (config : HttpRequestRateLimitConfig) (s : RateLimiterState) (peer : IpAddr)
    (now : Instant) : RateLimiterState → Except HttpRateLimitRejection Unit → Prop where
  | global (wait : Nat) (hRetry : (s.refilled now).global.retryAfter = some wait) :
      Admission config s peer now (s.refilled now) (.error (.global wait))
  | peerTableFull (s₀ : RateLimiterState) (hNew : peer ∉ s.peers)
      (hPruned : Pruned now config.peerIdleTtl (s.refilled now) s₀)
      (hFull : config.maxTrackedIps ≤ s₀.peers.size) :
      Admission config s peer now s₀
        (.error (.peerTableFull (min config.peerIdleTtl 60000000000)))
  | perIp (s₁ : RateLimiterState) (entry : PeerBucket) (wait : Nat)
      (hTracked : Tracked config (s.refilled now) peer now s₁ entry)
      (hRetry : (entry.bucket.refill now).retryAfter = some wait) :
      Admission config s peer now
        { s₁ with peers := s₁.peers.insert peer ⟨entry.bucket.refill now, now⟩ }
        (.error (.perIp wait))
  | admitted (s₁ : RateLimiterState) (entry : PeerBucket)
      (hGlobal : (s.refilled now).global.retryAfter = none)
      (hTracked : Tracked config (s.refilled now) peer now s₁ entry)
      (hToken : (entry.bucket.refill now).retryAfter = none) :
      Admission config s peer now
        { s₁ with
          global := s₁.global.consume
          peers := s₁.peers.insert peer ⟨(entry.bucket.refill now).consume, now⟩ }
        (.ok ())

theorem Tracked.entry {entry : PeerBucket} (h : Tracked config s peer now s₁ entry) :
    s₁.peers[peer]? = some entry := by
  cases h with
  | known _ => assumption
  | fresh => exact getElem?_insert_self

/-- The last part of a call, from a state that tracks the peer. -/
theorem draw_cases {entry : PeerBucket} (hGlobal : (s.refilled now).global.retryAfter = none)
    (hTracked : Tracked config (s.refilled now) peer now s₁ entry) :
    ∃ s' result, s₁.draw peer now = some (s', result) ∧ Admission config s peer now s' result := by
  unfold draw
  rw [hTracked.entry, Option.map_some]
  cases hRetry : (entry.bucket.refill now).retryAfter with
  | some wait => exact ⟨_, _, by simp only [hRetry], .perIp s₁ entry wait hTracked hRetry⟩
  | none => exact ⟨_, _, by simp only [hRetry], .admitted s₁ entry hGlobal hTracked hRetry⟩

theorem tryAdmitAt_ends (config : HttpRequestRateLimitConfig) (s : RateLimiterState)
    (peer : IpAddr) (now : Instant) :
    ∃ s' result, tryAdmitAt config s peer now = some (s', result) ∧
      Admission config s peer now s' result := by
  have hStart :
      ({ s with global := s.global.refill now } : RateLimiterState) = s.refilled now := rfl
  unfold tryAdmitAt
  rw [hStart]
  cases hRetry : (s.refilled now).global.retryAfter with
  | some wait => exact ⟨_, _, by simp only [hRetry], .global wait hRetry⟩
  | none =>
    simp only [hRetry, track]
    split_ifs with hKnown hFull
    · obtain ⟨entry, hEntry⟩ := TreeMap.mem_iff_exists.mp hKnown
      exact draw_cases hRetry (.known entry hEntry)
    · exact ⟨_, _, rfl, .peerTableFull _ hKnown (cleanup_pruned _ _ _ _) hFull⟩
    · exact draw_cases hRetry
        (.fresh _ hKnown (cleanup_pruned _ _ _ _) (Nat.lt_of_not_le hFull) _)

/-- Neither `expect` of a call can fail. -/
theorem tryAdmitAt_isSome (config : HttpRequestRateLimitConfig) (s : RateLimiterState)
    (peer : IpAddr) (now : Instant) : (tryAdmitAt config s peer now).isSome := by
  obtain ⟨_, _, hCall, -⟩ := tryAdmitAt_ends config s peer now
  rw [hCall]
  rfl

theorem tryAdmitAt_cases {s' : RateLimiterState}
    (h : tryAdmitAt config s peer now = some (s', result)) :
    Admission config s peer now s' result := by
  obtain ⟨_, _, hCall, hCase⟩ := tryAdmitAt_ends config s peer now
  rw [hCall] at h
  cases h
  exact hCase

/-! ## The invariant -/

/-- Every bucket is one of its quota, and the rotation and the table, which is within its
bound, hold the same peers. -/
structure Sound (config : HttpRequestRateLimitConfig) (s : RateLimiterState) : Prop where
  global : s.global.Of config.globalRequestsPerSecond config.globalBurst
  peers : ∀ (peer : IpAddr) (entry : PeerBucket), s.peers[peer]? = some entry →
    entry.bucket.Of config.perIpRequestsPerSecond config.perIpBurst
  listed : s.Listed
  size_le : s.peers.size ≤ config.maxTrackedIps

variable {config : HttpRequestRateLimitConfig} {s s' s₀ s₁ : RateLimiterState} {peer : IpAddr}
  {entry : PeerBucket}

theorem Sound.newAt (h : config.Accepted) (now : Instant) : Sound config (newAt config now) where
  global := .new h.global now
  peers peer entry hEntry := by
    have hNone : (RateLimiterState.newAt config now).peers[peer]? = none := getElem?_empty
    rw [hNone] at hEntry
    cases hEntry
  listed := ⟨nodup_nil, fun peer => by simp [RateLimiterState.newAt]⟩
  size_le := by simp [RateLimiterState.newAt]

theorem Sound.refilled (h : Sound config s) (now : Instant) : Sound config (s.refilled now) :=
  ⟨h.global.refill now, h.peers, ⟨h.listed.nodup, h.listed.mem_iff⟩, h.size_le⟩

theorem Sound.pruned (h : Sound config s) (hPruned : Pruned now idleTtl s s₀) :
    Sound config s₀ where
  global := hPruned.global ▸ h.global
  peers peer entry hEntry := by
    rcases hPruned.peers peer with hSame | ⟨hNone, -⟩
    · exact h.peers peer entry (hSame ▸ hEntry)
    · rw [hNone] at hEntry
      cases hEntry
  listed := hPruned.listed h.listed
  size_le := by
    have hSize := h.size_le
    rcases hPruned.size with hSame | _
    · rw [hSame]
      exact hSize
    · omega

/-- Where a removed peer stood there is no entry. -/
theorem Pruned.not_mem (hPruned : Pruned now idleTtl s s₀) (hNew : peer ∉ s.peers) :
    peer ∉ s₀.peers := by
  rw [TreeMap.mem_iff_exists] at hNew ⊢
  rintro ⟨entry, hEntry⟩
  rcases hPruned.peers peer with hSame | ⟨hNone, -⟩
  · exact hNew ⟨entry, hSame ▸ hEntry⟩
  · rw [hNone] at hEntry
    cases hEntry

theorem getElem?_insert_eq (peers : ExtTreeMap IpAddr PeerBucket) (peer p : IpAddr)
    (entry : PeerBucket) :
    (peers.insert peer entry)[p]? = if p = peer then some entry else peers[p]? := by
  rw [ExtTreeMap.getElem?_insert]
  by_cases hp : p = peer
  · rw [if_pos hp, if_pos (Std.compare_eq_iff_eq.mpr hp.symm)]
  · rw [if_neg hp, if_neg fun hEq => hp (Std.compare_eq_iff_eq.mp hEq).symm]

theorem mem_insert_iff (peers : ExtTreeMap IpAddr PeerBucket) (peer p : IpAddr)
    (entry : PeerBucket) : p ∈ peers.insert peer entry ↔ p = peer ∨ p ∈ peers := by
  rw [mem_insert, Std.compare_eq_iff_eq, eq_comm]

theorem Sound.tracked (h : Sound config s) (hAccepted : config.Accepted)
    (hTracked : Tracked config s peer now s₁ entry) : Sound config s₁ := by
  cases hTracked with
  | known => exact h
  | fresh s₀ hNew hPruned _ _ =>
    have hSound := h.pruned hPruned
    have hAbsent := hPruned.not_mem hNew
    refine ⟨hSound.global, fun p e hEntry => ?_, ⟨?_, fun p => ?_⟩, ?_⟩
    · rw [getElem?_insert_eq] at hEntry
      split_ifs at hEntry with hp
      · cases hEntry
        exact .new hAccepted.perIp now
      · exact hSound.peers p e hEntry
    · refine (perm_append_singleton peer s₀.peerOrder).nodup_iff.mpr
        (nodup_cons.mpr ⟨?_, hSound.listed.nodup⟩)
      exact fun hMem => hAbsent ((hSound.listed.mem_iff peer).mp hMem)
    · show p ∈ s₀.peerOrder ++ [peer] ↔ p ∈ s₀.peers.insert peer _
      rw [mem_insert_iff, (perm_append_singleton peer s₀.peerOrder).mem_iff, mem_cons,
        hSound.listed.mem_iff]
    · show (s₀.peers.insert peer _).size ≤ config.maxTrackedIps
      rw [size_insert, if_neg fun hMem => hAbsent (contains_iff_mem.mp hMem)]
      omega

/-- A new entry for a tracked peer. -/
theorem Sound.replace (h : Sound config s) (hEntry : s.peers[peer]? = some entry)
    {global : TokenBucket} (hGlobal : global.Of config.globalRequestsPerSecond config.globalBurst)
    {entry' : PeerBucket}
    (hBucket : entry'.bucket.Of config.perIpRequestsPerSecond config.perIpBurst) :
    Sound config { s with global := global, peers := s.peers.insert peer entry' } where
  global := hGlobal
  peers p e hp := by
    rw [getElem?_insert_eq] at hp
    split_ifs at hp with hEq
    · cases hp
      exact hBucket
    · exact h.peers p e hp
  listed := by
    refine ⟨h.listed.nodup, fun p => ?_⟩
    have hMem : peer ∈ s.peers := TreeMap.mem_iff_exists.mpr ⟨entry, hEntry⟩
    show p ∈ s.peerOrder ↔ p ∈ s.peers.insert peer entry'
    rw [mem_insert_iff, h.listed.mem_iff]
    constructor
    · exact .inr
    · rintro (rfl | hp)
      · exact hMem
      · exact hp
  size_le := by
    have hMem : peer ∈ s.peers := TreeMap.mem_iff_exists.mpr ⟨entry, hEntry⟩
    show (s.peers.insert peer entry').size ≤ config.maxTrackedIps
    rw [size_insert, if_pos (contains_iff_mem.mpr hMem)]
    exact h.size_le

/-- **Every call keeps the invariant.** -/
theorem Sound.tryAdmitAt (h : Sound config s) (hAccepted : config.Accepted)
    (hCase : Admission config s peer now s' result) : Sound config s' := by
  have hRefilled := h.refilled now
  cases hCase with
  | global => exact hRefilled
  | peerTableFull _ _ hPruned => exact hRefilled.pruned hPruned
  | perIp _ entry _ hTracked =>
    have hSound := hRefilled.tracked hAccepted hTracked
    have hBucket := hSound.peers peer entry hTracked.entry
    exact hSound.replace hTracked.entry hSound.global (hBucket.refill now)
  | admitted _ entry _ hTracked =>
    have hSound := hRefilled.tracked hAccepted hTracked
    have hBucket := hSound.peers peer entry hTracked.entry
    exact hSound.replace hTracked.entry hSound.global.consume (hBucket.refill now).consume

end RateLimiterState

end TunnelProxy.Edge
