import TunnelProxy.Routes.Client

/-!
# Where the ingress looks up hostnames

`HttpHostRoutes` is a fixed table, or a subscription to the route catalog. `Names` is what a
lookup stands for; a table without duplicates, and a catalog whose hostnames ascend, have at
most one answer (`resolve_eq_some`).

With the client of the route catalog behind the subscription, lookups answer from the last
catalog until `max_stale_age` after the stream failed, and not at all from then until the
next stream (`resolve_freshness`).
-/

namespace TunnelProxy.Ingress

open Common Routes Transition Option

abbrev HttpHostname := PublicHostname

/-- The map of a static source: no hostname has two entries. -/
structure HostTable where
  entries : List (HttpHostname × TunnelId)
  distinct : (entries.map Prod.fst).Nodup
deriving DecidableEq

namespace HostTable

def get (table : HostTable) (hostname : HttpHostname) : Option TunnelId :=
  (table.entries.find? (·.1 = hostname)).map Prod.snd

theorem get_eq_some {table : HostTable} {hostname : HttpHostname} {tunnelId : TunnelId} :
    table.get hostname = some tunnelId ↔ (hostname, tunnelId) ∈ table.entries := by
  unfold get
  constructor
  · intro h
    obtain ⟨⟨_, _⟩, hFind, rfl⟩ := map_eq_some_iff.mp h
    have hName := List.find?_some hFind
    rw [← of_decide_eq_true hName]
    exact List.mem_of_find?_eq_some hFind
  · intro hMem
    have hFound : (table.entries.find? (·.1 = hostname)).isSome :=
      List.find?_isSome.mpr ⟨_, hMem, decide_eq_true rfl⟩
    obtain ⟨entry, hFind⟩ := isSome_iff_exists.mp hFound
    have hName := List.find?_some hFind
    have hSame : entry = (hostname, tunnelId) :=
      List.inj_on_of_nodup_map table.distinct (List.mem_of_find?_eq_some hFind) hMem
        (of_decide_eq_true hName)
    rw [hFind, hSame]
    rfl

end HostTable

inductive HttpHostRoutes where
  | static (table : HostTable)
  | dynamic (subscription : HttpsRouteCatalogSubscription)
deriving DecidableEq

namespace HttpHostRoutes

def resolve (routes : HttpHostRoutes) (hostname : HttpHostname) : Option TunnelId :=
  match routes with
  | .static table => table.get hostname
  | .dynamic subscription =>
    if subscription.sourceHealth ≠ .expired then
      (subscription.current.routes.find? fun route =>
        route.status = .enabled && route.hostname = hostname).map (·.tunnelId)
    else none

end HttpHostRoutes

/-! ## What a lookup stands for -/

/-- The catalog has an enabled route of the hostname to the tunnel. -/
def Enables (catalog : HttpsRouteCatalog) (hostname : HttpHostname) (tunnelId : TunnelId) : Prop :=
  ⟨hostname, tunnelId, .enabled⟩ ∈ catalog.routes

instance (catalog : HttpsRouteCatalog) (hostname : HttpHostname) (tunnelId : TunnelId) :
    Decidable (Enables catalog hostname tunnelId) :=
  inferInstanceAs (Decidable (_ ∈ _))

/-- The source is not expired and names the tunnel for the hostname. -/
def HttpHostRoutes.Names (routes : HttpHostRoutes) (hostname : HttpHostname)
    (tunnelId : TunnelId) : Prop :=
  match routes with
  | .static table => (hostname, tunnelId) ∈ table.entries
  | .dynamic subscription =>
    subscription.sourceHealth ≠ .expired ∧ Enables subscription.current hostname tunnelId

/-- No two routes of a catalog have the same hostname. -/
theorem route_of_hostname {catalog : HttpsRouteCatalog} {a b : HttpsRouteRecord}
    (ha : a ∈ catalog.routes) (hb : b ∈ catalog.routes) (hName : a.hostname = b.hostname) :
    a = b := by
  have hDistinct : (catalog.routes.map (·.hostname)).Nodup := by
    refine List.pairwise_map.mpr (catalog.ascending.imp fun {x y} hLt hSame => ?_)
    rw [hSame, Std.compare_self] at hLt
    cases hLt
  exact List.inj_on_of_nodup_map hDistinct ha hb hName

variable {hostname : HttpHostname} {tunnelId : TunnelId}

theorem find_enabled {catalog : HttpsRouteCatalog} :
    (catalog.routes.find? fun route => route.status = .enabled && route.hostname = hostname).map
        (·.tunnelId) = some tunnelId ↔ Enables catalog hostname tunnelId := by
  constructor
  · intro h
    obtain ⟨⟨_, _, _⟩, hFind, rfl⟩ := map_eq_some_iff.mp h
    have hFound := List.find?_some hFind
    simp only [Bool.and_eq_true, decide_eq_true_eq] at hFound
    obtain ⟨rfl, rfl⟩ := hFound
    exact List.mem_of_find?_eq_some hFind
  · intro hMem
    have hFound : (catalog.routes.find? fun route =>
        route.status = .enabled && route.hostname = hostname).isSome :=
      List.find?_isSome.mpr ⟨_, hMem, by simp⟩
    obtain ⟨route, hFind⟩ := isSome_iff_exists.mp hFound
    have hKeys := List.find?_some hFind
    simp only [Bool.and_eq_true, decide_eq_true_eq] at hKeys
    have hSame : route = ⟨hostname, tunnelId, .enabled⟩ :=
      route_of_hostname (List.mem_of_find?_eq_some hFind) hMem hKeys.2
    rw [hFind, hSame]
    rfl

theorem HttpHostRoutes.resolve_eq_some {routes : HttpHostRoutes} :
    routes.resolve hostname = some tunnelId ↔ routes.Names hostname tunnelId := by
  cases routes with
  | static => exact HostTable.get_eq_some
  | dynamic subscription =>
    show (if subscription.sourceHealth ≠ .expired then _ else none) = some tunnelId ↔
      subscription.sourceHealth ≠ .expired ∧ Enables subscription.current hostname tunnelId
    by_cases hHealth : subscription.sourceHealth ≠ .expired
    · rw [if_pos hHealth, find_enabled]
      exact (and_iff_right hHealth).symm
    · rw [if_neg hHealth]
      exact iff_of_false nofun fun h => hHealth h.1

/-! ## Lookups over a client of the catalog -/

open HttpsRouteClientRuntime in
/-- For every client, whatever its stream and its attempts to reconnect bring: the published
version never decreases; and while it runs, the source is live exactly while it holds a
stream, lookups answer from the last catalog that a stream has brought while it does and after
a failure at `d` until a poll at `d + max_stale_age` or later, and no lookup answers from that
poll on. -/
theorem resolve_freshness {config : HttpsRouteClientConfig} {initial : HttpsRouteCatalog}
    {start : Int} {client s : HttpsRouteClientRuntime} {polls : List RoutePoll}
    (hBoot : bootstrap config (.ok (.catalog initial)) start = .ok client)
    (hRun : exec (poll config) client polls = some s) :
    let history := heard config ⟨initial, none⟩ client polls
    (∀ later s', exec (poll config) s later = some s' →
      s.subscription.current.version ≤ s'.subscription.current.version) ∧
    (s.running → (s.subscription.sourceHealth = .live ↔ s.holdsStream) ∧
      (s.holdsStream ↔ history.failedAt = none) ∧
      (s.holdsStream → ∀ hostname tunnelId,
        (HttpHostRoutes.dynamic s.subscription).resolve hostname = some tunnelId ↔
          Enables history.catalog hostname tunnelId) ∧
      ∀ d, history.failedAt = some d → (d + config.maxStaleAge ≤ s.now → ∀ hostname,
          (HttpHostRoutes.dynamic s.subscription).resolve hostname = none) ∧
        (s.now < d + config.maxStaleAge → ∀ hostname tunnelId,
          (HttpHostRoutes.dynamic s.subscription).resolve hostname = some tunnelId ↔
            Enables history.catalog hostname tunnelId)) := by
  intro history
  obtain ⟨hPos, hStart⟩ := bootstrap_fresh hBoot
  have hFresh : s.Fresh config history := hStart.run hPos hRun
  refine ⟨?_, ?_⟩
  · intro _ s' hLater
    have hLast := (hFresh.run hPos hLater).updates
    show s.publisher.updates.version ≤ s'.publisher.updates.version
    rw [hFresh.updates, hLast]
    exact run_version_le hLater
  · intro hRunning
    have hCurrent : s.subscription.current = history.catalog :=
      hFresh.updates.trans (hFresh.catalog hRunning)
    -- a source that has not expired answers from the last catalog
    have hAnswers : s.publisher.health ≠ .expired → ∀ hostname tunnelId,
        (HttpHostRoutes.dynamic s.subscription).resolve hostname = some tunnelId ↔
          Enables history.catalog hostname tunnelId := by
      intro hHealth _ _
      rw [HttpHostRoutes.resolve_eq_some, HttpHostRoutes.Names, hCurrent]
      exact and_iff_right hHealth
    by_cases hHolds : s.phase = .streaming
    · obtain ⟨hLive, hNone⟩ := hFresh.streaming hHolds
      have hStream : s.holdsStream = true := decide_eq_true hHolds
      refine ⟨iff_of_true hLive hStream, iff_of_true hStream hNone, fun _ => ?_, ?_⟩
      · exact hAnswers (by rw [hLive]; decide)
      · intro _ hFailed
        cases hNone.symm.trans hFailed
    · have hStream : s.holdsStream = false := decide_eq_false hHolds
      obtain ⟨expiresAt, expiryEnabled, hDeadline⟩ : ∃ e enabled,
          s.deadline? = some (e, enabled) := by
        unfold running at hRunning
        unfold deadline?
        cases hPhase : s.phase with
        | streaming => exact absurd hPhase hHolds
        | waiting e enabled | reconnecting e enabled => exact ⟨e, enabled, rfl⟩
        | ended =>
          rw [hPhase] at hRunning
          cases hRunning
      obtain ⟨hOffline, -⟩ := hFresh.offline expiresAt expiryEnabled hDeadline
      refine ⟨?_, ?_, ?_, ?_⟩
      · exact iff_of_false hOffline.notLive (by rw [hStream]; decide)
      · refine iff_of_false (by rw [hStream]; decide) ?_
        rw [hOffline.failedAt]
        exact some_ne_none _
      · intro hHeld
        cases hStream.symm.trans hHeld
      · intro d hFailed
        obtain rfl : s.authenticatedAt = d := Option.some.inj (hOffline.failedAt.symm.trans hFailed)
        refine ⟨fun hLate hostname => ?_, fun hEarly => ?_⟩
        · have hExpired := hOffline.expired.mpr hLate
          exact if_neg (not_not.mpr hExpired)
        · exact hAnswers fun hExpired => absurd (hOffline.expired.mp hExpired) (by omega)

namespace FreshnessExample

def config : HttpsRouteClientConfig := ⟨5, 5, 5, 1, 8, 100⟩

/-- The hostname is routed to one tunnel. -/
def catalog (version : HttpsRouteCatalogVersion) (tunnelId : TunnelId) : HttpsRouteCatalog :=
  ⟨version, [⟨RouteExample.domain, tunnelId, .enabled⟩], Nat.le_add_left 1 _,
    List.pairwise_singleton _ _⟩

def second : HttpsRouteCatalog := catalog ⟨3, by decide, by decide⟩ RouteExample.api

/-- The stream brings a second catalog, and fails at 7. -/
def outage : List RoutePoll :=
  [⟨3, false, some (.ok (.catalog second)), none⟩, ⟨7, false, some (.error .truncated), none⟩,
    ⟨106, false, none, none⟩]

/-- The attempt that was begun at 106 succeeds in the poll that finds the deadline passed. -/
def deadline : List RoutePoll := [⟨107, false, none, some (.ok (.upToDate .first))⟩]

end FreshnessExample

open FreshnessExample HttpsRouteClientRuntime in
/-- Until the deadline the second catalog is in use, and afterwards none. -/
theorem resolve_freshness_expired : ∃ client s s',
    bootstrap config (.ok (.catalog (catalog .first RouteExample.web))) 0 = .ok client ∧
      exec (poll config) client outage = some s ∧
      exec (poll config) client (outage ++ deadline) = some s' ∧
      (HttpHostRoutes.dynamic s.subscription).resolve RouteExample.domain = some RouteExample.api ∧
      (HttpHostRoutes.dynamic s'.subscription).resolve RouteExample.domain = none := by
  let initial := catalog .first RouteExample.web
  obtain ⟨client, hBoot⟩ : ∃ client, bootstrap config (.ok (.catalog initial)) 0 = .ok client :=
    ⟨_, rfl⟩
  obtain ⟨s, hs, hRunning, hNow, hHeard⟩ : ∃ s, exec (poll config) client outage = some s ∧
      s.running ∧ s.now < 107 ∧ heard config ⟨initial, none⟩ client outage = ⟨second, some 7⟩ := by
    cases hBoot
    decide +kernel
  obtain ⟨s', hs', hRunning', hNow', hHeard'⟩ : ∃ s',
      exec (poll config) client (outage ++ deadline) = some s' ∧ s'.running ∧ 107 ≤ s'.now ∧
        heard config ⟨initial, none⟩ client (outage ++ deadline) = ⟨second, some 7⟩ := by
    cases hBoot
    decide +kernel
  have hBefore := (resolve_freshness hBoot hs).2 hRunning
  have hAfter := (resolve_freshness hBoot hs').2 hRunning'
  rw [hHeard] at hBefore
  rw [hHeard'] at hAfter
  have hEnables : Enables second RouteExample.domain RouteExample.api := List.mem_cons_self
  exact ⟨client, s, s', hBoot, hs, hs', ((hBefore.2.2.2 7 rfl).2 hNow _ _).mpr hEnables,
    (hAfter.2.2.2 7 rfl).1 hNow' _⟩

end TunnelProxy.Ingress
