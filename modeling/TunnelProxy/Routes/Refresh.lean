import TunnelProxy.Lib.Versioned
import TunnelProxy.Routes.Lifecycle

/-!
# Loading and publishing the catalog

`PersistentHttpsRouteCatalog` publishes what it loads. Its calls hold a gate, so there is
one load at a time; but a load is three SELECTs, and between them any other connection may
commit. An allocation or release through the authority is a commit followed by a load.

A transaction that commits between the SELECT of the version and that of the rows gives the
load the old version with the new rows (`torn_load_conflicts`). When none does, every load
returns the catalog of one committed state, and every publication is accepted
(`refresh_consistent`).
-/

namespace TunnelProxy.Routes

open Common Versioned Transition List

/-! ## The publisher -/

inductive HttpsRoutePublishOutcome where
  | applied (previous current : HttpsRouteCatalogVersion)
  | unchanged (version : HttpsRouteCatalogVersion)
deriving DecidableEq

inductive HttpsRouteUpdateError where
  | staleVersion (current received : HttpsRouteCatalogVersion)
  | conflictingVersion (version : HttpsRouteCatalogVersion)
deriving DecidableEq

/-- `HttpsRouteCatalogPublisher::publish` under its mutex: the outcome and the catalog that
is current afterwards. -/
def publish (current candidate : HttpsRouteCatalog) :
    Except HttpsRouteUpdateError (HttpsRoutePublishOutcome × HttpsRouteCatalog) :=
  if candidate.version < current.version then
    .error (.staleVersion current.version candidate.version)
  else if candidate.version = current.version then
    if candidate = current then .ok (.unchanged current.version, current)
    else .error (.conflictingVersion current.version)
  else .ok (.applied current.version candidate.version, candidate)

/-- What is the current catalog or newer is accepted, and is current afterwards. -/
theorem publish_ok {current candidate : HttpsRouteCatalog}
    (h : current = candidate ∨ current.version < candidate.version) :
    ∃ outcome, publish current candidate = .ok (outcome, candidate) := by
  rcases h with rfl | hNewer
  · exact ⟨.unchanged current.version, by simp [publish]⟩
  · exact ⟨.applied current.version candidate.version,
      by rw [publish, if_neg hNewer.asymm, if_neg hNewer.ne']⟩

/-! ## The system -/

inductive HttpsRouteAuthorityError where
  | repository (error : HttpsRouteRepositoryError)
  | publishInvariant
deriving DecidableEq

/-- How far the load in progress has come. -/
inductive Load where
  | idle
  | version (version : HttpsRouteCatalogVersion)
  | catalog (catalog : HttpsRouteCatalog)
deriving DecidableEq

structure Authority where
  db : Db
  /-- The committed states, newest first. -/
  states : List Db
  /-- The catalog of the publisher; none until `open` has returned. -/
  published : Option HttpsRouteCatalog
  load : Load
  /-- The reply of the last call that ended: `open`, a refresh, or the publication of an
  allocation or release. -/
  result : Option (Except HttpsRouteAuthorityError Unit)

inductive Action where
  /-- A connection commits a transaction. -/
  | commit (op : Op)
  /-- A load begins with the SELECT of the version. -/
  | selectVersion
  /-- The SELECT of the rows. -/
  | selectRoutes
  /-- The SELECT of the managed hostnames, and the publication. -/
  | finish
  /-- A new process, which opens the catalog again. -/
  | restart

namespace Authority

def init : Authority := ⟨.fresh, [.fresh], none, .idle, none⟩

def failed (s : Authority) (error : HttpsRouteAuthorityError) : Authority :=
  { s with load := .idle, result := some (.error error) }

def publishes (s : Authority) (catalog : HttpsRouteCatalog) : Authority :=
  match s.published with
  | none => { s with published := some catalog, load := .idle, result := some (.ok ()) }
  | some current =>
    match publish current catalog with
    | .ok (_, current) =>
      { s with published := some current, load := .idle, result := some (.ok ()) }
    | .error _ => s.failed .publishInvariant

def step (s : Authority) : Action → Option Authority
  | .commit op =>
    let db := (run s.db op).2
    some { s with db, states := if db = s.db then s.states else db :: s.states }
  | .selectVersion =>
    match s.load with
    | .idle =>
      match s.db.loadVersion with
      | .ok version => some { s with load := .version version }
      | .error error => some (s.failed (.repository error))
    | _ => none
  | .selectRoutes =>
    match s.load with
    | .version version =>
      match catalogOf version s.db.selectRoutes with
      | .ok catalog => some { s with load := .catalog catalog }
      | .error error => some (s.failed (.repository error))
    | _ => none
  | .finish =>
    match s.load with
    | .catalog catalog =>
      match s.db.validateManagedHostnames with
      | .ok () => some (s.publishes catalog)
      | .error error => some (s.failed (.repository error))
    | _ => none
  | .restart => some { s with published := none, load := .idle }

/-- A transaction that changes something does not commit between the two SELECTs of
`load_catalog`. -/
def undisturbed (s : Authority) : Action → Prop
  | .commit op => ∀ version, s.load = .version version → (run s.db op).2 = s.db
  | _ => True

/-! ## Loads of one state -/

/-- The committed states show directories of growing versions; a load that has read the
version reads it from the current state, and one that has its rows, like the publisher, has
the catalog of a committed state. -/
structure Consistent (s : Authority) (dir : Directory) (older : List Directory) : Prop where
  states : Forall₂ Db.Shows s.states (dir :: older)
  current : s.db.Shows dir
  growing : Growing Directory.version (dir :: older)
  version : ∀ version, s.load = .version version → version = dir.version
  catalog : ∀ catalog, s.load = .catalog catalog → ∃ d ∈ dir :: older, d.catalog = catalog
  published : ∀ catalog, s.published = some catalog → ∃ d ∈ dir :: older, d.catalog = catalog
  ordered : ∀ current catalog, s.published = some current → s.load = .catalog catalog →
    current.version ≤ catalog.version
  replies : ∀ reply, s.result = some reply → reply = .ok ()

theorem consistent_init : init.Consistent Directory.empty [] where
  states := .cons fresh_shows .nil
  current := fresh_shows
  growing := Growing.singleton _
  version := nofun
  catalog := nofun
  published := nofun
  ordered := nofun
  replies := nofun

variable {s s' : Authority} {dir : Directory} {older : List Directory}

section

variable (h : s.Consistent dir older)
include h

/-- A commit adds a state on top; what was loaded and published before stays in the
history. -/
theorem consistent_commit {op : Op} (hGuard : s.undisturbed (.commit op))
    (hStep : s.step (.commit op) = some s') : ∃ dir older, s'.Consistent dir older := by
  cases hStep
  rcases run_cases h.current op with ⟨-, hKept⟩ | ⟨dir', next, -, hNext, hEdit, hShows⟩
  · refine ⟨dir, older, ?_⟩
    rw [hKept, if_pos rfl]
    exact { h with }
  · have hLt : dir.version < dir'.version := by
      rw [hEdit.version_eq]
      show dir.version.value < next.value
      rw [HttpsRouteCatalogVersion.value_next hNext]
      exact Nat.lt_succ_self _
    have hChanged : (run s.db op).2 ≠ s.db := by
      intro hEq
      rw [hEq] at hShows
      have hSame := hShows.loadVersion_eq.symm.trans h.current.loadVersion_eq
      exact hLt.ne' (Except.ok.inj hSame)
    refine ⟨dir', dir :: older, ?_⟩
    rw [if_neg hChanged]
    have hLater : ∀ {catalog}, (∃ d ∈ dir :: older, d.catalog = catalog) →
        ∃ d ∈ dir' :: dir :: older, d.catalog = catalog :=
      fun ⟨d, hd, hEq⟩ => ⟨d, mem_cons_of_mem dir' hd, hEq⟩
    exact
      { states := .cons hShows h.states
        current := hShows
        growing := h.growing.cons hLt
        -- here the guard is needed: no load may be waiting for its rows
        version := fun version hLoad => absurd (hGuard version hLoad) hChanged
        catalog := fun catalog hLoad => hLater (h.catalog catalog hLoad)
        published := fun catalog hPublished => hLater (h.published catalog hPublished)
        ordered := h.ordered
        replies := h.replies }

theorem consistent_selectVersion
    (hStep : s.step .selectVersion = some s') : s'.Consistent dir older := by
  simp only [step, h.current.loadVersion_eq] at hStep
  split at hStep
  · cases hStep
    exact
      { h with
        version := fun version hLoad => (by cases hLoad; rfl)
        catalog := nofun
        ordered := nofun }
  · cases hStep

theorem consistent_selectRoutes
    (hStep : s.step .selectRoutes = some s') : s'.Consistent dir older := by
  simp only [step, h.current.catalogOf_selectRoutes] at hStep
  split at hStep
  · rename_i version hLoad
    obtain rfl : version = dir.version := h.version version hLoad
    cases hStep
    exact
      { h with
        version := fun _ hLoad => (by cases hLoad)
        catalog := fun catalog hLoad => (by cases hLoad; exact ⟨dir, mem_cons_self, rfl⟩)
        ordered := by
          intro current _ hPublished hLoad
          cases hLoad
          obtain ⟨_, hd, rfl⟩ := h.published current hPublished
          exact h.growing.mem_le_head hd }
  · cases hStep

/-- The publisher holds a catalog of the history at or before the loaded one, and so takes
it. -/
theorem publishes_eq {catalog : HttpsRouteCatalog}
    (hLoad : s.load = .catalog catalog) :
    s.publishes catalog =
      { s with published := some catalog, load := .idle, result := some (.ok ()) } := by
  unfold publishes
  cases hPublished : s.published with
  | none => rfl
  | some current =>
    obtain ⟨d, hd, rfl⟩ := h.published current hPublished
    obtain ⟨d', hd', rfl⟩ := h.catalog catalog hLoad
    have hOrder : d.version ≤ d'.version := h.ordered _ _ hPublished hLoad
    obtain ⟨outcome, hOk⟩ : ∃ outcome,
        publish d.catalog d'.catalog = .ok (outcome, d'.catalog) := by
      refine publish_ok ?_
      rcases h.growing.eq_or_lt hd hd' hOrder with rfl | hLt
      · exact .inl rfl
      · exact .inr hLt
    simp only [hOk]

theorem consistent_finish (hStep : s.step .finish = some s') :
    s'.Consistent dir older := by
  simp only [step, h.current.validateManagedHostnames_eq] at hStep
  split at hStep
  · rename_i catalog hLoad
    rw [publishes_eq h hLoad] at hStep
    cases hStep
    exact
      { h with
        version := nofun
        catalog := nofun
        published := fun _ hPublished => (by cases hPublished; exact h.catalog catalog hLoad)
        ordered := nofun
        replies := fun _ hReply => (by cases hReply; rfl) }
  · cases hStep

theorem consistent_step {a : Action} (hGuard : s.undisturbed a)
    (hStep : s.step a = some s') : ∃ dir older, s'.Consistent dir older := by
  cases a with
  | commit => exact consistent_commit h hGuard hStep
  | selectVersion => exact ⟨dir, older, consistent_selectVersion h hStep⟩
  | selectRoutes => exact ⟨dir, older, consistent_selectRoutes h hStep⟩
  | finish => exact ⟨dir, older, consistent_finish h hStep⟩
  | restart =>
    cases hStep
    exact ⟨dir, older,
      { h with
        version := nofun
        catalog := nofun
        published := nofun
        ordered := nofun }⟩

end

/-- **Loads of one state.** In every run in which no change commits between the SELECT of
the version and the SELECT of the rows of a load, whatever a load has read is the catalog
of one committed state, and no call ever reports an error. -/
theorem refresh_consistent {actions : List Action}
    (hGuard : Guarded step undisturbed init actions)
    (hRun : exec step init actions = some s) :
    (∀ catalog, s.load = .catalog catalog → ∃ db ∈ s.states, db.load = .ok catalog) ∧
      ∀ reply, s.result = some reply → reply = .ok () := by
  obtain ⟨dir, older, h⟩ := exec_induction_guarded
    (P := fun s => ∃ dir older, Consistent s dir older)
    (fun _ _ _ ⟨_, _, h⟩ hGuard hStep => consistent_step h hGuard hStep)
    ⟨_, _, consistent_init⟩ hGuard hRun
  refine ⟨fun catalog hLoad => ?_, h.replies⟩
  obtain ⟨_, hd, rfl⟩ := h.catalog catalog hLoad
  obtain ⟨i, hi, rfl⟩ := mem_iff_getElem.mp hd
  have hi' : i < s.states.length := by rw [h.states.length_eq]; exact hi
  exact ⟨s.states.get ⟨i, hi'⟩, get_mem _ _, (h.states.get hi' hi).load_eq⟩

/-- A catalog is opened, a route is added, and a refresh publishes it. -/
def undisturbedRun : List Action :=
  [.selectVersion, .selectRoutes, .finish, .commit (.upsert RouteExample.record),
    .selectVersion, .selectRoutes, .commit (.remove RouteExample.domain), .finish]

theorem refresh_consistent_published : Guarded step undisturbed init undisturbedRun ∧
      ∃ s, exec step init undisturbedRun = some s ∧
        s.published.map (·.routes) = some [RouteExample.record] ∧
        ∀ reply, s.result = some reply → reply = .ok () := by
  have hGuard : Guarded step undisturbed init undisturbedRun := by
    refine ⟨trivial, trivial, trivial, ?_, trivial, trivial, ?_, trivial, trivial⟩
    · intro _ hLoad
      cases hLoad
    · intro _ hLoad
      cases hLoad
  obtain ⟨s, hExec, hRoutes⟩ : ∃ s, exec step init undisturbedRun = some s ∧
      s.published.map (·.routes) = some [RouteExample.record] := by decide +kernel
  exact ⟨hGuard, s, hExec, hRoutes, (refresh_consistent hGuard hExec).2⟩

/-! ## Torn loads -/

/-- The same, but the route is added after the refresh has read the version. -/
def tornRun : List Action :=
  [.selectVersion, .selectRoutes, .finish,
    .selectVersion, .commit (.upsert RouteExample.record), .selectRoutes]

/-- The load has the rows of the second version under the first version: a catalog that no
committed state has. Its publication is refused, and the refresh reports
`PublishInvariant`. -/
theorem torn_load_conflicts :
    (∃ s catalog, exec step init tornRun = some s ∧ s.load = .catalog catalog ∧
      ∀ db ∈ s.states, db.load ≠ .ok catalog) ∧
    ∃ s, exec step init (tornRun ++ [.finish]) = some s ∧
      s.result = some (.error .publishInvariant) := by
  obtain ⟨s, hRun, hLoaded⟩ : ∃ s, exec step init tornRun = some s ∧ (match s.load with
      | .catalog catalog => s.states.all fun db => db.load ≠ .ok catalog
      | _ => false) = true := by decide +kernel
  refine ⟨?_, by decide +kernel⟩
  split at hLoaded
  · rename_i catalog hLoad
    refine ⟨s, catalog, hRun, hLoad, fun db hDb => ?_⟩
    exact of_decide_eq_true (all_eq_true.mp hLoaded db hDb)
  · cases hLoaded

end Authority

end TunnelProxy.Routes
