import TunnelProxy.Control.CacheDurability
import TunnelProxy.Control.Distribution

/-!
# The Edge follows the Control Plane

Whatever is on its way to the Edge is not older than anything the Edge has: what its cache
holds, what it has published, and what it is storing. So no message is ever refused.

* `Safe` — the invariant
* `distribution_safe` — no rejection, no rollback, no content of its own, and nothing
  published that is not in the cache
-/

namespace TunnelProxy.Control

open Common Versioned CrashDisk Transition List Option

/-- The version a message speaks of. -/
def SnapshotMessage.version? : SnapshotMessage → Option SnapshotVersion
  | .snapshot current => some current.version
  | .upToDate version => some version
  | _ => none

/-- The client and the Control Plane disagree about versions. -/
def SnapshotClientError.isRejection : SnapshotClientError → Bool
  | .server _ | .bootstrapResponse | .unexpectedMessage | .update _ => true
  | .cache (.staleVersion _ _) | .cache (.conflictingVersion _) => true
  | _ => false

namespace Distribution

/-! ## Invariant -/

/-- The snapshot that is being stored. -/
def storing? (s : Distribution) : Option VersionedAuthorizationSnapshot :=
  match s.phase with
  | .storing _ snapshot _ _ => some snapshot
  | _ => none

def reconnecting (s : Distribution) : Bool :=
  match s.phase with
  | .reconnecting _ _ => true
  | _ => false

/-- The phases in which there may be a connection. -/
def connected (s : Distribution) : Bool :=
  match s.phase with
  | .bootstrapping | .streaming _ | .reconnecting _ _ | .storing _ _ _ _ => true
  | _ => false

/-- The client runs, and no store is in progress. -/
def running (s : Distribution) : Bool :=
  match s.phase with
  | .streaming _ | .offline _ | .waiting _ _ _ | .retrying _ | .reconnecting _ _ => true
  | _ => false

/-- What the Edge has, or may have. -/
def Has (sha256 : Hash) (s : Distribution) (x : VersionedAuthorizationSnapshot) : Prop :=
  MayHold sha256 s.cache.disk x ∨ s.published = some x ∨ s.storing? = some x

/-- What is on its way is in order, and nothing that the Edge has is newer. -/
structure LinkOk (sha256 : Hash) (s : Distribution) (link : Link) : Prop where
  connected : s.connected
  later : ∀ message ∈ link.inbox, ∃ version, message.version? = some version ∧
    version ≤ s.current.version ∧ ∀ x, s.Has sha256 x → x.version ≤ version
  sent : ∀ x, .snapshot x ∈ link.inbox → x ∈ s.history
  ordered : link.inbox.Pairwise fun a b => ∀ v ∈ a.version?, ∀ w ∈ b.version?, v ≤ w
  request : ∀ lastApplied, link.request = some lastApplied → link.inbox = [] ∧
    (link.server = .awaiting ∨ link.server = .closed) ∧
    (s.phase = .bootstrapping ∧ lastApplied = 0 ∨
      s.reconnecting ∧ ∃ v, s.published = some v ∧ lastApplied = v.version.value)
  head : ∀ message ∈ link.inbox.head?, (∃ x, message = .snapshot x) ∨
    s.reconnecting ∧ ∃ v, s.published = some v ∧ message = .upToDate v.version
  tail : ∀ message ∈ link.inbox.tail, ∃ x, message = .snapshot x

/-- A store in progress. -/
structure Storing (sha256 : Hash) (s : Distribution) (purpose : StorePurpose)
    (x : VersionedAuthorizationSnapshot) : Prop where
  above : ∀ y, MayHold sha256 s.cache.disk y → y.version ≤ x.version
  published : match purpose with
    | .bootstrap => s.published = none
    | .refresh => s.published = some x
    | _ => ∃ v, s.published = some v ∧ v.version ≤ x.version
  reply : s.cache.call = none →
    s.cache.reply = some (.ok ()) ∧ x ∈ s.cache.acked ∧ Holds sha256 s.cache.disk.live x ∨
      ∃ error, s.cache.reply = some (.error error) ∧ error.ofReading

structure Safe (sha256 : Hash) (s : Distribution) : Prop where
  newest : s.history.head? = some s.current
  growing : Growing VersionedAuthorizationSnapshot.version s.history
  kept : Kept sha256 s.cache
  given : ∀ x ∈ s.cache.given, x ∈ s.history
  call : ∀ phase attempt, s.cache.call = some (phase, attempt) → s.storing? = some attempt.snapshot
  has : ∀ x, s.published = some x ∨ s.storing? = some x → x ∈ s.history
  runs : s.running → ∃ v, s.published = some v ∧
    ∀ x, MayHold sha256 s.cache.disk x → x.version ≤ v.version
  stores : ∀ purpose x time delay, s.phase = .storing purpose x time delay →
    s.Storing sha256 purpose x
  bootstraps : s.phase = .bootstrapping → s.published = none
  logged : ∀ v, s.published = some v → s.log.head? = some v
  fresh : s.phase ≠ .down → s.published = none → s.log = []
  ordered : s.log.Pairwise fun newer older => older.version ≤ newer.version
  held : ∀ v ∈ s.everPublished, ∃ y, Holds sha256 s.cache.disk.live y ∧ v.version ≤ y.version
  link : ∀ link, s.link = some link → s.LinkOk sha256 link
  accepted : ∀ error, s.ended = some (.error error) → error.isRejection = false

variable {sha256 : Hash} {config : SnapshotClientConfig} {s s' : Distribution}
  {x y v : VersionedAuthorizationSnapshot} {link : Link} {message : SnapshotMessage}
  {server : ServePhase} {failedAt : Option Int} {phase : ClientPhase} {request : Option Nat}
  {delay : Nat} {listed : List (Text × List UInt8)} {purpose : StorePurpose} {authenticatedAt : Int}
  {a : DistributionAction} {cache : FileSnapshotCache} {error : SnapshotClientError}

theorem safe_init (current : VersionedAuthorizationSnapshot) : (init current).Safe sha256 where
  newest := rfl
  growing := Growing.singleton current
  kept := Kept.init
  given := nofun
  call := nofun
  has := fun _ h => (by rcases h with h | h <;> cases h)
  runs := nofun
  stores := nofun
  bootstraps := nofun
  logged := nofun
  fresh := fun h _ => absurd rfl h
  ordered := Pairwise.nil
  held := nofun
  link := nofun
  accepted := nofun

/-! ## Consequences -/

section

variable (h : s.Safe sha256)
include h

/-- All that the Edge has comes from the Control Plane. -/
theorem Safe.mem_history (hx : s.Has sha256 x) : x ∈ s.history := by
  rcases hx with ⟨state, hState, entry, hEntry, _, hStored⟩ | hRest
  · rcases h.kept.sound.entries state hState entry hEntry with hTmp | ⟨_, _, hStored', -, hGiven⟩
    · rw [hStored.notTmp] at hTmp
      cases hTmp
    · exact h.given x (hStored.unique hStored' ▸ hGiven)
  · exact h.has x hRest

theorem Safe.version_le_current (hx : x ∈ s.history) :
    x.version ≤ s.current.version := by
  obtain ⟨_, hHistory⟩ := head?_eq_some_iff.mp h.newest
  have hGrowing := h.growing
  rw [hHistory] at hGrowing hx
  exact hGrowing.mem_le_head hx

/-- Of two snapshots of the Control Plane, one is the other or older. -/
theorem Safe.upTo (hx : x ∈ s.history) (hy : y ∈ s.history)
    (hVersion : x.version ≤ y.version) : VersionUpTo x y :=
  h.growing.eq_or_lt hx hy hVersion

/-! ## The Control Plane -/

theorem Safe.publish {candidate : VersionedAuthorizationSnapshot}
    (hStep : s.step sha256 config (.publish candidate) = some s') : s'.Safe sha256 := by
  simp only [step] at hStep
  split at hStep
  · rename_i version next hPublish
    cases hStep
    obtain ⟨-, hNewer⟩ := publish_applied hPublish
    obtain ⟨_, hHistory⟩ := head?_eq_some_iff.mp h.newest
    have hGrowing : Growing VersionedAuthorizationSnapshot.version (next :: s.history) := by
      have hOld := h.growing
      rw [hHistory] at hOld ⊢
      exact hOld.cons hNewer
    exact
      { h with
        newest := rfl
        growing := hGrowing
        given := fun x hx => mem_cons_of_mem _ (h.given x hx)
        has := fun x hx => mem_cons_of_mem _ (h.has x hx)
        stores := fun purpose x time delay hPhase =>
          { h.stores purpose x time delay hPhase with }
        link := by
          intro link hLink
          have hOk := h.link link hLink
          exact
            { hOk with
              later := by
                intro message hMessage
                obtain ⟨version, hVersion, hLe, hHas⟩ := hOk.later message hMessage
                exact ⟨version, hVersion, hLe.trans hNewer.le, hHas⟩
              sent := fun x hx => mem_cons_of_mem _ (hOk.sent x hx) } }
  · cases hStep

/-- A message of the current version comes after all others. -/
theorem LinkOk.push (hOk : s.LinkOk sha256 link)
    (hVersion : message.version? = some s.current.version)
    (hSent : ∀ x, message = .snapshot x → x = s.current)
    (hHead : link.inbox = [] → (∃ x, message = .snapshot x) ∨
      s.reconnecting ∧ ∃ v, s.published = some v ∧ message = .upToDate v.version)
    (hTail : link.inbox ≠ [] → ∃ x, message = .snapshot x) :
    s.LinkOk sha256 ⟨none, server, link.inbox ++ [message]⟩ where
  connected := hOk.connected
  later := by
    intro other hOther
    rcases mem_append.mp hOther with hOld | hNew
    · exact hOk.later other hOld
    · cases mem_singleton.mp hNew
      exact ⟨_, hVersion, le_rfl, fun x hx => h.version_le_current (h.mem_history hx)⟩
  sent := by
    intro x hx
    rcases mem_append.mp hx with hOld | hNew
    · exact hOk.sent x hOld
    · rw [hSent x (mem_singleton.mp hNew).symm]
      exact mem_of_mem_head? h.newest
  ordered := by
    refine pairwise_append.mpr ⟨hOk.ordered, pairwise_singleton _ _, ?_⟩
    intro other hOther _ hLast _ hv _ hw
    cases mem_singleton.mp hLast
    obtain ⟨_, hOtherVersion, hLe, -⟩ := hOk.later other hOther
    cases hOtherVersion.symm.trans hv
    cases hVersion.symm.trans hw
    exact hLe
  request := nofun
  head := by
    intro other hOther
    cases hInbox : link.inbox with
    | nil =>
      rw [hInbox] at hOther
      cases hOther
      exact hHead hInbox
    | cons =>
      rw [hInbox] at hOther
      cases hOther
      exact hOk.head other (by rw [hInbox]; rfl)
  tail := by
    intro other hOther
    cases hInbox : link.inbox with
    | nil =>
      rw [hInbox] at hOther
      cases hOther
    | cons =>
      rw [hInbox, cons_append, tail_cons] at hOther
      rcases mem_append.mp hOther with hOld | hNew
      · exact hOk.tail other (by rw [hInbox]; exact hOld)
      · cases mem_singleton.mp hNew
        exact hTail (by rw [hInbox]; exact cons_ne_nil _ _)

/-- Only the connection has changed. -/
theorem Safe.withLink {link : Option Link}
    (hLink : ∀ l, link = some l → s.LinkOk sha256 l) :
    { s with link : Distribution }.Safe sha256 :=
  { h with
    stores := fun purpose x time delay hPhase => { h.stores purpose x time delay hPhase with }
    link := fun l hl => { hLink l hl with } }

omit h in
theorem LinkOk.setServer (hOk : s.LinkOk sha256 link)
    (hServer : server = .closed ∨ link.request = none) : s.LinkOk sha256 { link with server } :=
  { hOk with
    request := by
      intro lastApplied hRequest
      obtain ⟨hInbox, -, hPhase⟩ := hOk.request lastApplied hRequest
      rcases hServer with rfl | hNone
      · exact ⟨hInbox, .inr rfl, hPhase⟩
      · cases hNone.symm.trans hRequest }

omit h in
/-- A subscribed connection has been answered. -/
theorem LinkOk.answered (hOk : s.LinkOk sha256 link) {seen : Nat}
    (hServer : link.server = .subscribed seen ∨ link.server = .woken seen) :
    link.request = none := by
  cases hRequest : link.request with
  | none => rfl
  | some lastApplied =>
    obtain ⟨-, hPhase, -⟩ := hOk.request lastApplied hRequest
    rcases hServer with hServer | hServer <;> rw [hServer] at hPhase <;>
      rcases hPhase with hPhase | hPhase <;> cases hPhase

theorem Safe.respond (hStep : s.step sha256 config .respond = some s') :
    s'.Safe sha256 := by
  simp only [step] at hStep
  split at hStep
  · rename_i lastApplied inbox hLink
    have hOk := h.link _ hLink
    obtain ⟨hInbox, -, hPhase⟩ := hOk.request lastApplied rfl
    cases hStep
    refine h.withLink ?_
    rintro _ ⟨⟩
    -- the answer speaks of the current version, and is up to date only for what was asked
    have hResponse : subscribeResponse s.current lastApplied = .snapshot s.current ∨
        subscribeResponse s.current lastApplied = .upToDate s.current.version ∧
          s.reconnecting ∧ ∃ v, s.published = some v ∧ v.version = s.current.version := by
      rcases hPhase with ⟨-, rfl⟩ | ⟨hReconnecting, v, hPublished, rfl⟩
      · have hPos := s.current.version.pos
        rw [subscribeResponse, if_neg hPos.ne, if_pos hPos]
        exact .inl rfl
      · have hLe : v.version.value ≤ s.current.version.value :=
          h.version_le_current (h.has v (.inl hPublished))
        rcases hLe.eq_or_lt with hEq | hLt
        · rw [subscribeResponse, if_pos hEq]
          exact .inr ⟨rfl, hReconnecting, v, hPublished, SnapshotVersion.ext hEq⟩
        · rw [subscribeResponse, if_neg hLt.ne, if_pos hLt]
          exact .inl rfl
    refine LinkOk.push h hOk ?_ ?_ ?_ ?_
    · rcases hResponse with hResponse | ⟨hResponse, -⟩ <;> rw [hResponse] <;> rfl
    · intro _ hx
      rcases hResponse with hResponse | ⟨hResponse, -⟩ <;> cases hResponse.symm.trans hx
      rfl
    · intro _
      rcases hResponse with hResponse | ⟨hResponse, hReconnecting, v, hPublished, hVersion⟩
      · exact .inl ⟨_, hResponse⟩
      · exact .inr ⟨hReconnecting, v, hPublished, hVersion ▸ hResponse⟩
    · exact fun hNe => absurd hInbox hNe
  · cases hStep

theorem Safe.send (hStep : s.step sha256 config .send = some s') :
    s'.Safe sha256 := by
  simp only [step] at hStep
  split at hStep
  · rename_i request seen inbox hLink
    have hOk := h.link _ hLink
    obtain rfl : request = none := hOk.answered (.inr rfl)
    cases hStep
    refine h.withLink ?_
    rintro _ ⟨⟩
    exact LinkOk.push h hOk rfl (fun x hx => (by cases hx; rfl)) (fun _ => .inl ⟨_, rfl⟩)
      (fun _ => ⟨_, rfl⟩)
  · cases hStep

theorem Safe.changed (hStep : s.step sha256 config .changed = some s') :
    s'.Safe sha256 := by
  simp only [step] at hStep
  split at hStep
  · rename_i hLink
    split_ifs at hStep
    cases hStep
    have hOk := h.link _ hLink
    refine h.withLink ?_
    rintro _ ⟨⟩
    exact hOk.setServer (.inr (hOk.answered (.inl rfl)))
  · cases hStep

theorem Safe.closeServer {epoch : Nat} :
    { s with
      epoch
      link := s.link.map fun link => { link with server := .closed } :
      Distribution }.Safe sha256 := by
  have hLink : ∀ l, s.link.map (fun link => { link with server := .closed }) = some l →
      s.LinkOk sha256 l := by
    intro _ hl
    obtain ⟨link, hOld, rfl⟩ := map_eq_some_iff.mp hl
    exact (h.link link hOld).setServer (.inl rfl)
  exact
    { h.withLink hLink with
      stores := fun purpose x time delay hPhase => { h.stores purpose x time delay hPhase with }
      link := fun l hl => { hLink l hl with } }

/-! ## The Edge -/

/-- The client returns. -/
theorem Safe.finish (hCall : s.cache.call = none)
    {result : Except SnapshotClientError Unit}
    (hResult : ∀ error, result = .error error → error.isRejection = false) :
    (s.finish result).Safe sha256 :=
  { h with
    call := fun _ _ hSome => (by cases hCall.symm.trans hSome)
    has := fun _ hx => (by rcases hx with hx | hx <;> cases hx)
    runs := nofun
    stores := nofun
    bootstraps := fun _ => rfl
    logged := nofun
    fresh := fun hPhase _ => absurd rfl hPhase
    link := nofun
    accepted := fun error hEnded => hResult error (Option.some.inj hEnded) }

/-- Nothing is being stored outside the storing phase. -/
theorem Safe.call_eq_none (hStoring : s.storing? = none) :
    s.cache.call = none := by
  cases hCall : s.cache.call with
  | none => rfl
  | some call =>
    cases hStoring.symm.trans (h.call call.1 call.2 hCall)

theorem Safe.link_eq_none (hConnected : s.connected = false) :
    s.link = none := by
  cases hLink : s.link with
  | none => rfl
  | some link =>
    have hOk := (h.link link hLink).connected
    rw [hConnected] at hOk
    cases hOk

omit h in
theorem storing?_of_running (h : s.running) : s.storing? = none := by
  unfold running at h
  unfold storing?
  split at h <;> rename_i hPhase <;> first | rw [hPhase] | cases h

omit h in
theorem phase_of_running (h : s.running) : (∀ purpose x time delay,
    s.phase ≠ .storing purpose x time delay) ∧ s.phase ≠ .bootstrapping := by
  refine ⟨fun _ _ _ _ hPhase => ?_, fun hPhase => ?_⟩ <;> rw [running, hPhase] at h <;> cases h

/-- The client goes on without a connection. -/
theorem Safe.move (hRuns : s.running)
    (hNext : { s with phase : Distribution }.running) {link : Option Link} (hLink : link = none) :
    { s with phase, link, failedAt : Distribution }.Safe sha256 := by
  have hStoring : { s with phase, link, failedAt : Distribution }.storing? = none :=
    storing?_of_running hNext
  exact
    { h with
      call := fun _ _ hSome =>
        (by cases (h.call_eq_none (storing?_of_running hRuns)).symm.trans hSome)
      has := by
        rintro x (hx | hx)
        · exact h.has x (.inl hx)
        · cases hStoring.symm.trans hx
      runs := fun _ => h.runs hRuns
      stores := fun _ _ _ _ hPhase => absurd hPhase ((phase_of_running hNext).1 _ _ _ _)
      bootstraps := fun hPhase => absurd hPhase (phase_of_running hNext).2
      fresh := by
        intro _ hNone
        obtain ⟨_, hPublished, -⟩ := h.runs hRuns
        cases hNone.symm.trans hPublished
      link := fun _ hSome => (by cases hLink.symm.trans hSome) }

omit h in
/-- A message is taken from the connection. -/
theorem LinkOk.pop {rest : List SnapshotMessage}
    (hOk : s.LinkOk sha256 ⟨request, server, message :: rest⟩) :
    s.LinkOk sha256 ⟨request, server, rest⟩ :=
  { hOk with
    later := fun other hOther => hOk.later other (mem_cons_of_mem _ hOther)
    sent := fun x hx => hOk.sent x (mem_cons_of_mem _ hx)
    ordered := (pairwise_cons.mp hOk.ordered).2
    request := by
      intro lastApplied hRequest
      cases (hOk.request lastApplied hRequest).1
    head := fun other hOther => .inl (hOk.tail other (mem_of_mem_head? hOther))
    tail := fun other hOther => hOk.tail other (mem_of_mem_tail hOther) }

omit h in
/-- What follows a message is snapshots, and none is older. -/
theorem LinkOk.rest {rest : List SnapshotMessage} {version : SnapshotVersion}
    (hOk : s.LinkOk sha256 ⟨request, server, message :: rest⟩)
    (hVersion : message.version? = some version) :
    request = none ∧ ∀ other ∈ rest, (∃ x, other = .snapshot x) ∧
      ∀ w ∈ other.version?, version ≤ w := by
  refine ⟨?_, fun other hOther => ⟨hOk.tail other hOther, fun w hw => ?_⟩⟩
  · cases request with
    | none => rfl
    | some lastApplied => cases (hOk.request lastApplied rfl).1
  · exact (pairwise_cons.mp hOk.ordered).1 other hOther version hVersion w hw

/-- The cache is called with a snapshot that nothing the Edge has exceeds, and that nothing
on its way is older than. -/
theorem Safe.beginStore (hx : x ∈ s.history)
    (hAbove : ∀ y, s.Has sha256 y → y.version ≤ x.version) (hPublished : match purpose with
      | .bootstrap => s.published = none
      | .refresh => s.published = some x
      | _ => ∃ v, s.published = some v ∧ v.version ≤ x.version)
    (hFresh : s.published = none → s.log = [])
    (hLink : ∀ link, s.link = some link → link.request = none ∧
      ∀ message ∈ link.inbox, (∃ x, message = .snapshot x) ∧
        ∀ version ∈ message.version?, x.version ≤ version)
    (hStep : s.beginStore sha256 config purpose x delay listed = some s') : s'.Safe sha256 := by
  obtain ⟨cache, hCache, rfl⟩ := map_eq_some_iff.mp hStep
  -- nothing on the disk is newer, so that the cache does not refuse the snapshot
  have hUpTo : ∀ y, MayHold sha256 s.cache.disk y → VersionUpTo y x := fun y hy =>
    h.upTo (h.mem_history (.inl hy)) hx (hAbove y (.inl hy))
  obtain ⟨-, hGiven, hDisk, hReply⟩ := h.kept.store_effect hUpTo hCache
  have hHas : ∀ y, { s with
      cache, phase := .storing purpose x s.now delay : Distribution }.Has sha256 y →
        y = x ∨ s.Has sha256 y := by
    rintro y (hy | hy | hy)
    · exact .inr (.inl (hDisk ▸ hy))
    · exact .inr (.inr (.inl hy))
    · exact .inl (Option.some.inj hy).symm
  exact
    { h with
      kept := h.kept.step hCache
      given := by
        intro y hy
        rw [show cache.given = _ from hGiven] at hy
        rcases mem_cons.mp hy with rfl | hOld
        · exact hx
        · exact h.given y hOld
      call := by
        intro _ _ hCall
        rcases hReply with ⟨_, _, hCall', hSnapshot⟩ | ⟨hNone, -⟩
        · cases hCall'.symm.trans hCall
          exact congrArg some hSnapshot.symm
        · cases hNone.symm.trans hCall
      has := by
        rintro y (hy | hy)
        · exact h.has y (.inl hy)
        · cases Option.some.inj hy
          exact hx
      runs := nofun
      stores := by
        rintro _ _ _ _ ⟨⟩
        exact
          { above := fun y hy => hAbove y (.inl (hDisk ▸ hy))
            published := hPublished
            reply := by
              intro hNone
              rcases hReply with ⟨_, _, hCall', -⟩ | ⟨-, hError⟩
              · cases hNone.symm.trans hCall'
              · exact .inr hError }
      bootstraps := nofun
      fresh := fun _ => hFresh
      held := fun v hv => (by rw [show cache.disk = _ from hDisk]; exact h.held v hv)
      link := by
        intro link hSome
        have hOk := h.link link hSome
        obtain ⟨hRequest, hInbox⟩ := hLink link hSome
        exact
          { hOk with
            connected := rfl
            later := by
              intro message hMessage
              obtain ⟨version, hVersion, hLe, hOld⟩ := hOk.later message hMessage
              refine ⟨version, hVersion, hLe, fun y hy => ?_⟩
              rcases hHas y hy with rfl | hy
              · exact (hInbox message hMessage).2 version hVersion
              · exact hOld y hy
            request := fun lastApplied hSome => (by cases hRequest.symm.trans hSome)
            head := fun message hMessage =>
              Or.inl (hInbox message (mem_of_mem_head? hMessage)).1 } }

theorem Safe.pop {rest : List SnapshotMessage}
    (hOk : s.LinkOk sha256 ⟨request, server, message :: rest⟩) :
    { s with link := some ⟨request, server, rest⟩ : Distribution }.Safe sha256 :=
  h.withLink (by rintro l ⟨⟩; exact hOk.pop)

theorem Safe.handle_snapshot {rest : List SnapshotMessage}
    (hOk : s.LinkOk sha256 ⟨request, server, .snapshot x :: rest⟩)
    (hPhase : s.phase = .bootstrapping ∧ purpose = .bootstrap ∨
      s.running ∧ (purpose = .update ∨ purpose = .reconnect))
    (hStep : { s with link := some ⟨request, server, rest⟩ }.beginStore sha256 config purpose x
      delay listed = some s') : s'.Safe sha256 := by
  obtain ⟨_, hVersion, -, hHas⟩ := hOk.later _ mem_cons_self
  cases hVersion
  refine (h.pop hOk).beginStore (hOk.sent x mem_cons_self) hHas ?_ ?_ ?_ hStep
  · rcases hPhase with ⟨hPhase, rfl⟩ | ⟨hRuns, rfl | rfl⟩
    · exact h.bootstraps hPhase
    all_goals
      obtain ⟨v, hPublished, -⟩ := h.runs hRuns
      exact ⟨v, hPublished, hHas v (.inr (.inl hPublished))⟩
  · refine h.fresh ?_
    rcases hPhase with ⟨hPhase, -⟩ | ⟨hRuns, -⟩
    · simp [hPhase]
    · intro hDown
      rw [running, hDown] at hRuns
      cases hRuns
  · rintro _ ⟨⟩
    exact hOk.rest rfl

/-- The Edge is told that it is up to date, and stores its snapshot again. -/
theorem Safe.handle_upToDate {rest : List SnapshotMessage}
    (hOk : s.LinkOk sha256 ⟨request, server, .upToDate v.version :: rest⟩)
    (hPublished : s.published = some v)
    (hStep : { s with link := some ⟨request, server, rest⟩ }.beginStore sha256 config .refresh v
      delay listed = some s') : s'.Safe sha256 := by
  obtain ⟨_, hVersion, -, hHas⟩ := hOk.later _ mem_cons_self
  cases hVersion
  refine (h.pop hOk).beginStore (h.has v (.inl hPublished)) hHas hPublished ?_ ?_ hStep
  · intro hNone
    cases hNone.symm.trans hPublished
  · rintro _ ⟨⟩
    exact hOk.rest rfl

theorem Safe.receive (hStep : s.step sha256 config (.receive listed) = some s') :
    s'.Safe sha256 := by
  simp only [step] at hStep
  split at hStep
  · rename_i message rest hLink
    have hOk := h.link _ hLink
    -- the first message is a snapshot, or the answer that the Edge is up to date
    rcases hOk.head message rfl with ⟨x, rfl⟩ | ⟨hReconnecting, v, hPublished, rfl⟩
    · simp only [handle] at hStep
      split at hStep
      · rename_i hPhase
        exact h.handle_snapshot hOk (.inl ⟨hPhase, rfl⟩) hStep
      · rename_i hPhase
        exact h.handle_snapshot hOk (.inr ⟨by rw [running, hPhase], .inl rfl⟩) hStep
      · rename_i hPhase
        split_ifs at hStep
        exact h.handle_snapshot hOk (.inr ⟨by rw [running, hPhase], .inr rfl⟩) hStep
      · cases hStep
    · unfold reconnecting at hReconnecting
      split at hReconnecting
      · rename_i hPhase
        simp only [handle, hPhase, hPublished, ne_eq, not_true_eq_false, if_false] at hStep
        split_ifs at hStep
        rw [← hPhase, ← hPublished] at hStep
        exact h.handle_upToDate hOk hPublished hStep
      · cases hReconnecting
  · cases hStep

/-- An operation of the cache: it brings in nothing but what is being stored, and what the
directory showed before may still come back. -/
theorem Safe.cacheOperation {a : CacheAction} {time : Int}
    (hPhase : s.phase = .storing purpose x time delay) (hOperation : a.isOperation)
    (hCache : s.cache.step sha256 config.maxStaleAge a = some cache) :
    { s with cache : Distribution }.Safe sha256 := by
  obtain ⟨phase, attempt, hCall, hGiven, ⟨hLive, hMay⟩, hContinues⟩ :=
    h.kept.operation hOperation hCache
  have hKept := h.kept.step hCache
  have hStoring : s.storing? = some x := by rw [storing?, hPhase]
  have hAttempt := h.call phase attempt hCall
  obtain rfl : x = attempt.snapshot := Option.some.inj (hStoring.symm.trans hAttempt)
  have hHas : ∀ y, { s with cache : Distribution }.Has sha256 y → s.Has sha256 y := by
    rintro y (hy | hy)
    · rcases hMay y hy with rfl | hOld
      · exact .inr (.inr hStoring)
      · exact .inl hOld
    · exact .inr hy
  exact
    { h with
      kept := hKept
      given := fun y hy => h.given y (hGiven ▸ hy)
      call := by
        intro _ _ hNext
        rcases hContinues with ⟨_, hNext'⟩ | ⟨hNone, -⟩
        · cases hNext'.symm.trans hNext
          exact hStoring
        · cases hNone.symm.trans hNext
      runs := by
        intro hRuns
        rw [running, hPhase] at hRuns
        cases hRuns
      stores := by
        intro _ _ _ _ hPhase'
        cases hPhase.symm.trans hPhase'
        have hOld := h.stores _ _ _ _ hPhase
        exact
          { hOld with
            above := by
              intro y hy
              rcases hMay y hy with rfl | hy
              · exact le_rfl
              · exact hOld.above y hy
            reply := by
              intro hNone
              rcases hContinues with ⟨_, hNext⟩ | ⟨-, hIo | hOk⟩
              · cases hNone.symm.trans hNext
              · exact .inr ⟨.io, hIo, rfl⟩
              · exact .inl hOk }
      held := by
        intro v hv
        -- what the disk held is dominated by what it holds now
        obtain ⟨y, hy, hVersion⟩ := h.held v hv
        obtain ⟨z, hz, hUpTo⟩ := hKept.sound.dominated y ⟨_, hLive, hy⟩
        exact ⟨z, hz, hVersion.trans hUpTo.version_le⟩
      link := by
        intro link hLink
        have hOk := h.link link hLink
        exact
          { hOk with
            later := by
              intro message hMessage
              obtain ⟨version, hVersion, hLe, hOld⟩ := hOk.later message hMessage
              exact ⟨version, hVersion, hLe, fun y hy => hOld y (hHas y hy)⟩ } }

/-- The log of a process ends with what is published. -/
theorem Safe.log_le (hPhase : s.phase ≠ .down)
    (hPublished : ∀ v, s.published = some v → v.version ≤ x.version) :
    ∀ older ∈ s.log, older.version ≤ x.version := by
  intro older hOlder
  cases hNone : s.published with
  | none =>
    rw [h.fresh hPhase hNone] at hOlder
    cases hOlder
  | some v =>
    obtain ⟨_, hLog⟩ := head?_eq_some_iff.mp (h.logged v hNone)
    have hOrdered := h.ordered
    rw [hLog] at hOrdered hOlder
    rcases mem_cons.mp hOlder with rfl | hRest
    · exact hPublished older hNone
    · exact ((pairwise_cons.mp hOrdered).1 older hRest).trans (hPublished v hNone)

omit h in
/-- The connection, when a snapshot has been stored and is what the Edge has published. -/
theorem LinkOk.stored (hOk : s.LinkOk sha256 link) (hStoring : s.storing? = some x)
    (hRuns : { s with phase : Distribution }.running)
    (hConnected : { s with phase : Distribution }.connected)
    {log everPublished : List VersionedAuthorizationSnapshot} {link' : Option Link}
    {published : Option VersionedAuthorizationSnapshot} (hPublished : published = some x) :
    { s with
      phase, authenticatedAt, failedAt, log, everPublished, published
      link := link' : Distribution }.LinkOk sha256 link := by
  have hIdle : { s with phase : Distribution }.storing? = none := storing?_of_running hRuns
  have hOther : ¬(s.phase = .bootstrapping ∨ s.reconnecting = true) := by
    unfold storing? at hStoring
    split at hStoring
    · rename_i hPhase
      rw [reconnecting, hPhase]
      simp
    · cases hStoring
  exact
    { hOk with
      connected := hConnected
      later := by
        intro message hMessage
        obtain ⟨version, hVersion, hLe, hHas⟩ := hOk.later message hMessage
        refine ⟨version, hVersion, hLe, ?_⟩
        rintro y (hy | hy | hy)
        · exact hHas y (.inl hy)
        · exact hHas y (.inr (.inr (hStoring.trans (hPublished.symm.trans hy))))
        · cases hIdle.symm.trans hy
      request := by
        intro lastApplied hRequest
        obtain ⟨-, -, hPhase⟩ := hOk.request lastApplied hRequest
        exact absurd (hPhase.imp And.left And.left) hOther
      head := by
        intro message hMessage
        rcases hOk.head message hMessage with hSnapshot | ⟨hReconnecting, -⟩
        · exact .inl hSnapshot
        · exact absurd (.inr hReconnecting) hOther }

/-- The Edge publishes a snapshot that its cache holds. -/
theorem Safe.publishes {link : Option Link}
    (hRuns : { s with phase : Distribution }.running) (hPhase : s.phase ≠ .down)
    (hx : x ∈ s.history) (hCall : s.cache.call = none) (hHolds : Holds sha256 s.cache.disk.live x)
    (hTop : ∀ y, MayHold sha256 s.cache.disk y → y.version ≤ x.version)
    (hPublished : ∀ v, s.published = some v → v.version ≤ x.version)
    (hLink : ∀ l, link = some l → s.LinkOk sha256 l ∧ s.storing? = some x ∧
      { s with phase : Distribution }.connected) :
    { s.publishes x phase with link, authenticatedAt, failedAt : Distribution }.Safe sha256 := by
  have hIdle : { s with phase : Distribution }.storing? = none := storing?_of_running hRuns
  exact
    { h with
      call := fun _ _ hSome => (by cases hCall.symm.trans hSome)
      has := by
        rintro y (hy | hy)
        · cases hy
          exact hx
        · cases hIdle.symm.trans hy
      runs := fun _ => ⟨x, rfl, hTop⟩
      stores := fun _ _ _ _ hPhase => absurd hPhase ((phase_of_running hRuns).1 _ _ _ _)
      bootstraps := fun hPhase => absurd hPhase (phase_of_running hRuns).2
      logged := fun v hv => hv
      fresh := nofun
      ordered := pairwise_cons.mpr ⟨h.log_le hPhase hPublished, h.ordered⟩
      held := forall_mem_cons.mpr ⟨⟨x, hHolds, le_rfl⟩, h.held⟩
      link := by
        intro l hl
        obtain ⟨hOk, hStoring, hConnected⟩ := hLink l hl
        exact hOk.stored hStoring hRuns hConnected rfl }

/-- The snapshot of the Edge has been stored again. -/
theorem Safe.refreshed {time : Int} {next : Nat}
    (hPhase : s.phase = .storing .refresh x time delay) (hCall : s.cache.call = none) :
    { s with
      authenticatedAt, phase := .streaming next, failedAt := none : Distribution }.Safe sha256 := by
  have hStores := h.stores _ _ _ _ hPhase
  have hPublished : s.published = some x := hStores.published
  have hStoring : s.storing? = some x := by rw [storing?, hPhase]
  exact
    { h with
      call := fun _ _ hSome => (by cases hCall.symm.trans hSome)
      has := by
        rintro y (hy | hy)
        · exact h.has y (.inl hy)
        · cases hy
      runs := fun _ => ⟨x, hPublished, hStores.above⟩
      stores := nofun
      bootstraps := nofun
      fresh := by
        intro _ hNone
        cases hNone.symm.trans hPublished
      link := fun l hl => (h.link l hl).stored hStoring rfl rfl hPublished }

theorem Safe.stored (hStep : s.step sha256 config .stored = some s') :
    s'.Safe sha256 := by
  simp only [step] at hStep
  split at hStep
  · rename_i purpose x time delay hPhase
    have hStores := h.stores _ _ _ _ hPhase
    have hStoring : s.storing? = some x := by rw [storing?, hPhase]
    have hx : x ∈ s.history := h.has x (.inr hStoring)
    have hNotDown : s.phase ≠ .down := by simp [hPhase]
    split at hStep
    · rename_i hCall hReply
      have hHolds : Holds sha256 s.cache.disk.live x := by
        rcases hStores.reply hCall with ⟨-, -, hHolds⟩ | ⟨_, hError, -⟩
        · exact hHolds
        · cases hReply.symm.trans hError
      have hLink : ∀ next l, s.link = some l → s.LinkOk sha256 l ∧ s.storing? = some x ∧
          { s with phase := .streaming next : Distribution }.connected :=
        fun next l hl => ⟨h.link l hl, hStoring, rfl⟩
      have hUpdate : purpose = .update ∨ purpose = .reconnect →
          ({ s with authenticatedAt := time }.afterStore config x delay purpose).Safe sha256 := by
        intro hPurpose
        obtain ⟨v, hPublished, hVersion⟩ : ∃ v, s.published = some v ∧ v.version ≤ x.version := by
          rcases hPurpose with rfl | rfl <;> exact hStores.published
        obtain ⟨_, hPublish⟩ := publish_ok (h.upTo (h.has v (.inl hPublished)) hx hVersion)
        have hLe : ∀ w, s.published = some w → w.version ≤ x.version := by
          intro _ hw
          cases hPublished.symm.trans hw
          exact hVersion
        rcases hPurpose with rfl | rfl <;> simp only [afterStore, hPublished, hPublish] <;>
          exact h.publishes rfl hNotDown hx hCall hHolds hStores.above hLe (hLink _)
      cases hStep
      cases purpose with
      | bootstrap =>
        have hNone : s.published = none := hStores.published
        exact h.publishes rfl hNotDown hx hCall hHolds hStores.above
          (fun v hv => (by cases hNone.symm.trans hv)) (hLink _)
      | refresh => exact h.refreshed hPhase hCall
      | update => exact hUpdate (.inl rfl)
      | reconnect => exact hUpdate (.inr rfl)
    · rename_i error hCall hReply
      cases hStep
      refine h.finish hCall ?_
      rintro _ ⟨⟩
      rcases hStores.reply hCall with ⟨hOk, -⟩ | ⟨_, hError, hReading⟩
      · cases hReply.symm.trans hOk
      · cases hReply.symm.trans hError
        cases error <;> first | rfl | cases hReading
    · cases hStep
  · cases hStep

theorem Safe.start (hPhase : s.phase = .down) :
    { s with
      phase := .bootstrapping, link := none, published := none, ended := none
      failedAt := none, log := [] : Distribution }.Safe sha256 :=
  have hCall := h.call_eq_none (by rw [storing?, hPhase])
  { (h.finish hCall nofun : (s.finish (.ok ())).Safe sha256) with
    stores := nofun
    bootstraps := fun _ => rfl
    logged := nofun
    fresh := fun _ _ => rfl
    ordered := Pairwise.nil
    link := nofun
    accepted := nofun }

/-- The process is killed: what it was storing is left as it is. -/
theorem Safe.crash (hCache : s.cache.step sha256 config.maxStaleAge .kill = some cache) :
    { s with
      cache, phase := .down, link := none, published := none, ended := none : Distribution }.Safe
      sha256 := by
  have hKept := h.kept.step hCache
  cases hCache
  exact
    { h with
      kept := hKept
      call := nofun
      has := fun _ hx => (by rcases hx with hx | hx <;> cases hx)
      runs := nofun
      stores := nofun
      bootstraps := fun _ => rfl
      logged := nofun
      fresh := fun hPhase _ => absurd rfl hPhase
      link := nofun
      accepted := nofun }

theorem Safe.clock (now : Int) : { s with now : Distribution }.Safe sha256 :=
  { h with
    stores := fun purpose x time delay hPhase => { h.stores purpose x time delay hPhase with }
    link := fun l hl => { h.link l hl with } }

omit h in
/-- A subscription is asked for. -/
theorem LinkOk.subscribe {lastApplied : Nat} (hConnected : s.connected)
    (hPhase : s.phase = .bootstrapping ∧ lastApplied = 0 ∨
      s.reconnecting ∧ ∃ v, s.published = some v ∧ lastApplied = v.version.value) :
    s.LinkOk sha256 ⟨some lastApplied, .awaiting, []⟩ where
  connected := hConnected
  later := nofun
  sent := nofun
  ordered := Pairwise.nil
  request := by
    rintro _ ⟨⟩
    exact ⟨rfl, .inl rfl, hPhase⟩
  head := nofun
  tail := nofun

theorem Safe.connect (hStep : s.step sha256 config .connect = some s') :
    s'.Safe sha256 := by
  simp only [step] at hStep
  split_ifs at hStep
  split at hStep
  · rename_i hPhase
    cases hStep
    refine h.withLink ?_
    rintro _ ⟨⟩
    exact LinkOk.subscribe (by rw [connected, hPhase]) (.inl ⟨hPhase, rfl⟩)
  · rename_i hPhase
    split_ifs at hStep
    obtain ⟨v, hPublished, rfl⟩ := map_eq_some_iff.mp hStep
    refine h.withLink ?_
    rintro _ ⟨⟩
    exact LinkOk.subscribe (by rw [connected, hPhase])
      (.inr ⟨by rw [reconnecting, hPhase], v, hPublished, rfl⟩)
  · cases hStep

end

theorem isRejection_ofConnecting (h : error.ofConnecting) : error.isRejection = false := by
  cases error <;> first | rfl | cases h

theorem isRejection_ofReading {error : SnapshotCacheError} (h : error.ofReading) :
    (SnapshotClientError.cache error).isRejection = false := by
  cases error <;> first | rfl | cases h

/-- The Edge starts from its cache. -/
theorem Safe.fallback (config : SnapshotClientConfig) (h : s.Safe sha256)
    (hPhase : s.phase = .bootstrapping) (hListed : Lists listed s.cache.disk.live) :
    (∀ error, loadUnlocked sha256 config.maxStaleAge listed s.now true = .error error →
      (s.finish (.error (.cache error))).Safe sha256) ∧
    ∀ cached delay, loadUnlocked sha256 config.maxStaleAge listed s.now true = .ok cached →
      { s.publishes cached.snapshot (.offline delay) with
        link := none, authenticatedAt := cached.authenticatedAt : Distribution }.Safe sha256 := by
  have hCall : s.cache.call = none := h.call_eq_none (by rw [storing?, hPhase])
  have hFails : ∀ error, (SnapshotClientError.cache error).isRejection = false →
      (s.finish (.error (.cache error))).Safe sha256 := fun _ hError =>
    h.finish hCall (by rintro _ ⟨⟩; exact hError)
  have hFresh : _ ∨ ∃ error, error.ofReading ∧
      loadUnlocked sha256 config.maxStaleAge listed s.now true = .error error :=
    loadUnlocked_fresh config.maxStaleAge
  rcases hFresh with hSame | ⟨reading, hReading, hLoad⟩
  · rw [hSame]
    rcases h.kept.sound.load_cases hListed s.now config.maxStaleAge with
      ⟨hLoad, -⟩ | ⟨reading, hReading, hLoad⟩ | ⟨cached, hLoad, hHolds, hTop⟩ <;> rw [hLoad]
    · exact ⟨by rintro _ ⟨⟩; exact hFails _ rfl, by rintro _ _ ⟨⟩⟩
    · exact ⟨by rintro _ ⟨⟩; exact hFails _ (isRejection_ofReading hReading), by rintro _ _ ⟨⟩⟩
    · refine ⟨by rintro _ ⟨⟩, ?_⟩
      rintro _ _ ⟨⟩
      have hMay : MayHold sha256 s.cache.disk cached.snapshot := ⟨_, Disk.live_mem_states, hHolds⟩
      have hNone := h.bootstraps hPhase
      refine h.publishes rfl (by simp [hPhase]) (h.mem_history (.inl hMay)) hCall hHolds ?_
        (fun v hv => (by cases hNone.symm.trans hv)) nofun
      intro y hy
      obtain ⟨z, hz, hUpTo⟩ := h.kept.sound.dominated y hy
      exact hUpTo.version_le.trans (hTop z hz).version_le
  · rw [hLoad]
    exact ⟨by rintro _ ⟨⟩; exact hFails _ (isRejection_ofReading hReading), by rintro _ _ ⟨⟩⟩

theorem Safe.connectFails (h : s.Safe sha256)
    (hStep : s.step sha256 config (.connectFails error listed) = some s') : s'.Safe sha256 := by
  simp only [step] at hStep
  split at hStep
  · cases hStep
  rename_i hConnecting
  have hError : error.isRejection = false := isRejection_ofConnecting (by simpa using hConnecting)
  split at hStep
  · rename_i hPhase
    have hCall : s.cache.call = none := h.call_eq_none (by rw [storing?, hPhase])
    split_ifs at hStep with hFallback hListed
    · cases hStep
      exact h.finish hCall (by rintro _ ⟨⟩; exact hError)
    · have hCases := h.fallback config hPhase hListed
      split at hStep
      · rename_i cacheError hLoad
        cases hStep
        exact hCases.1 cacheError hLoad
      · rename_i cached hLoad
        cases hStep
        exact hCases.2 cached _ hLoad
  · rename_i hPhase
    have hRuns : s.running := by rw [running, hPhase]
    split_ifs at hStep
    · cases hStep
      exact h.finish (h.call_eq_none (storing?_of_running hRuns)) (by rintro _ ⟨⟩; exact hError)
    · cases hStep
      exact h.move hRuns rfl rfl
  · cases hStep

/-- The steps in which the client only moves between the phases of `run_until_shutdown`. -/
theorem Safe.moves
    (ha : a = .readFails ∨ a = .waitForRetry ∨ a = .reconnect ∨ a = .elapse ∨ a = .shutdown)
    (h : s.Safe sha256) (hStep : s.step sha256 config a = some s') : s'.Safe sha256 := by
  have hFinish : ∀ {result}, s.running →
      (∀ error, result = .error error → error.isRejection = false) →
      (s.finish result).Safe sha256 := fun hRuns hResult =>
    h.finish (h.call_eq_none (storing?_of_running hRuns)) hResult
  have hExpired : ∀ error, (Except.error .cacheExpired : Except SnapshotClientError Unit) =
      .error error → error.isRejection = false := by
    rintro _ ⟨⟩
    rfl
  rcases ha with rfl | rfl | rfl | rfl | rfl <;> simp only [step] at hStep <;> split at hStep <;>
    rename_i hPhase
  · cases hStep
    exact h.move (by rw [running, hPhase]) rfl rfl
  · cases hStep
  -- the cache may have expired when the client would go on
  iterate 2
    · have hRuns : s.running := by rw [running, hPhase]
      split_ifs at hStep <;> cases hStep
      · exact hFinish hRuns hExpired
      · exact h.move hRuns rfl (h.link_eq_none (by rw [connected, hPhase]))
    · cases hStep
  · have hRuns : s.running := by rw [running, hPhase]
    split_ifs at hStep <;> cases hStep
    · exact hFinish hRuns hExpired
    · exact h.move hRuns rfl (h.link_eq_none (by rw [connected, hPhase]))
  · split_ifs at hStep
    cases hStep
    exact hFinish (by rw [running, hPhase]) hExpired
  · cases hStep
  all_goals first
    | cases hStep; exact hFinish (by rw [running, hPhase]) (by rintro _ ⟨⟩)
    | cases hStep

theorem safe_step (h : s.Safe sha256) (hStep : s.step sha256 config a = some s') :
    s'.Safe sha256 := by
  cases a with
  | publish => exact h.publish hStep
  | respond => exact h.respond hStep
  | changed => exact h.changed hStep
  | send => exact h.send hStep
  | hangUp =>
    obtain ⟨link, hLink, rfl⟩ := map_eq_some_iff.mp hStep
    refine h.withLink ?_
    rintro _ ⟨⟩
    exact (h.link link hLink).setServer (.inl rfl)
  | restart =>
    cases hStep
    exact h.closeServer
  | start =>
    simp only [step] at hStep
    split_ifs at hStep with hPhase
    cases hStep
    exact h.start hPhase
  | connect => exact h.connect hStep
  | connectFails => exact h.connectFails hStep
  | receive => exact h.receive hStep
  | cache action =>
    simp only [step] at hStep
    split at hStep
    · rename_i hPhase
      split_ifs at hStep with hOperation
      obtain ⟨_, hCache, rfl⟩ := map_eq_some_iff.mp hStep
      exact h.cacheOperation hPhase hOperation hCache
    · cases hStep
  | stored => exact h.stored hStep
  | readFails | waitForRetry | reconnect | elapse | shutdown => exact h.moves (by simp) hStep
  | crash =>
    rw [step] at hStep
    obtain ⟨_, hCache, rfl⟩ := map_eq_some_iff.mp hStep
    exact h.crash hCache
  | clock now =>
    cases hStep
    exact h.clock now

/-! ## Publication -/

theorem handle_everPublished (hStep : s.handle sha256 config message listed = some s') :
    s'.everPublished = s.everPublished := by
  unfold handle at hStep
  repeat' split at hStep
  all_goals first
    | (obtain ⟨_, -, rfl⟩ := map_eq_some_iff.mp hStep; rfl)
    | cases hStep; rfl
    | cases hStep

theorem afterStore_effect (config : SnapshotClientConfig) (s : Distribution)
    (x : VersionedAuthorizationSnapshot)
    (purpose : StorePurpose) (delay : Nat) :
    (s.afterStore config x delay purpose).cache = s.cache ∧
      ((s.afterStore config x delay purpose).everPublished = s.everPublished ∨
        (s.afterStore config x delay purpose).everPublished = x :: s.everPublished) := by
  unfold afterStore
  split
  · exact ⟨rfl, .inr rfl⟩
  · exact ⟨rfl, .inl rfl⟩
  · split
    · exact ⟨rfl, .inl rfl⟩
    · split
      · exact ⟨rfl, .inl rfl⟩
      · rename_i hPublish
        cases publish_next hPublish
        exact ⟨rfl, .inr rfl⟩

/-- The client publishes when it falls back to its cache, and when a store has returned. The
cache is not touched in these steps. -/
theorem step_publishes (hStep : s.step sha256 config a = some s')
    (hPublished : s'.everPublished = v :: s.everPublished) :
    s'.cache = s.cache ∧ (a = .stored → ∃ purpose time delay,
      s.phase = .storing purpose v time delay ∧ s.cache.call = none ∧
        s.cache.reply = some (.ok ())) := by
  have hSame : s'.everPublished ≠ s.everPublished := by
    intro hEq
    rw [hEq] at hPublished
    exact cons_ne_self v _ hPublished.symm
  cases a with
  | stored =>
    simp only [step] at hStep
    split at hStep
    · rename_i purpose x time delay hPhase
      split at hStep
      · rename_i hCall hReply
        cases hStep
        obtain ⟨hCache, hEver⟩ :=
          afterStore_effect config { s with authenticatedAt := time } x purpose delay
        cases (hEver.resolve_left hSame).symm.trans hPublished
        exact ⟨hCache, fun _ => ⟨purpose, time, delay, hPhase, hCall, hReply⟩⟩
      · cases hStep
        exact absurd rfl hSame
      · cases hStep
    · cases hStep
  | connectFails =>
    refine ⟨?_, nofun⟩
    simp only [step] at hStep
    repeat' split at hStep
    all_goals first | (cases hStep; rfl) | cases hStep
  | receive =>
    simp only [step] at hStep
    split at hStep
    · exact absurd (handle_everPublished hStep) hSame
    · cases hStep
  | cache | crash | hangUp | connect =>
    refine absurd ?_ hSame
    rw [step] at hStep
    repeat' split at hStep
    all_goals first
      | (obtain ⟨_, _, rfl⟩ := map_eq_some_iff.mp hStep; rfl)
      | (cases hStep; rfl)
      | cases hStep
  | _ =>
    refine absurd ?_ hSame
    simp only [step] at hStep
    repeat' split at hStep
    all_goals first | (cases hStep; rfl) | cases hStep

theorem Safe.covers (h : s.Safe sha256) (hv : v ∈ s.everPublished) (maxStaleAge : Nat) :
    Covers sha256 maxStaleAge s.cache.clock s.cache.disk.live v.version := by
  obtain ⟨_, hHolds, hVersion⟩ := h.held v hv
  exact h.kept.sound.covers hHolds hVersion maxStaleAge

/-- The Control Plane and an Edge, in any order of their steps, with any failures of
connections and any kills of the Edge:

* the Edge never ends because a message or a store is refused for its version;
* what a process of the Edge publishes never goes back;
* what is published is not newer than the snapshot of the Control Plane, and is what the
  Control Plane published under that version;
* all that was ever published, or something newer, is loaded from the cache, whenever it is
  loaded; it is there when it is published, and what was published after a store even
  survives a crash of the machine. -/
theorem distribution_safe {current : VersionedAuthorizationSnapshot}
    {actions : List DistributionAction}
    (hRun : exec (step sha256 config) (init current) actions = some s) :
    (∀ error, s.ended = some (.error error) → error.isRejection = false) ∧
    s.log.Pairwise (fun newer older => older.version ≤ newer.version) ∧
    (∀ v, s.published = some v → s.log.head? = some v ∧ v.version ≤ s.current.version ∧
      v ∈ s.history ∧ ∀ x ∈ s.history, x.version = v.version → x = v) ∧
    (∀ v ∈ s.everPublished,
      Covers sha256 config.maxStaleAge s.cache.clock s.cache.disk.live v.version) ∧
    ∀ a s' v, s.step sha256 config a = some s' → s'.everPublished = v :: s.everPublished →
      Covers sha256 config.maxStaleAge s.cache.clock s.cache.disk.live v.version ∧
      (a = .stored → ∀ dir, s.cache.disk.Survives dir →
        Covers sha256 config.maxStaleAge s.cache.clock dir v.version) := by
  have h : s.Safe sha256 :=
    exec_induction (fun _ _ _ h hStep => safe_step h hStep) (safe_init current) hRun
  refine ⟨h.accepted, h.ordered, ?_, fun v hv => h.covers hv _, ?_⟩
  · intro v hv
    have hMem : v ∈ s.history := h.has v (.inl hv)
    exact ⟨h.logged v hv, h.version_le_current hMem, hMem,
      fun x hx hVersion => h.growing.eq_of_version hx hMem hVersion⟩
  · intro _ _ _ hStep hPublished
    obtain ⟨hCache, hStored⟩ := step_publishes hStep hPublished
    refine ⟨?_, fun ha dir hSurvives => ?_⟩
    · rw [← hCache]
      exact (safe_step h hStep).covers (by rw [hPublished]; exact mem_cons_self) _
    · obtain ⟨_, _, _, hPhase, hCall, hReply⟩ := hStored ha
      rcases (h.stores _ _ _ _ hPhase).reply hCall with ⟨-, hAcked, -⟩ | ⟨_, hError, -⟩
      · have hSound := h.kept.sound.crash hSurvives
        obtain ⟨_, _, hy, hUpTo⟩ := hSound.acked _ hAcked
        obtain ⟨entry, hEntry, -, hHolds⟩ := hy _ Disk.live_mem_states
        exact hSound.covers ⟨entry, hEntry, hHolds⟩ hUpTo.version_le _
      · cases hReply.symm.trans hError

namespace Example

open CacheExample

def clientConfig : SnapshotClientConfig := ⟨60, 1, 8⟩

def created : Text × List UInt8 := (generationStem 2 5 2 ++ tmpSuffix, [])

/-- The Edge bootstraps with version 1 and is killed while it stores version 2. It then
starts from its cache, and stores version 2 when it has reconnected. -/
def actions : List DistributionAction :=
  ([.clock 5000000, .start, .connect, .respond, .receive []] : List DistributionAction) ++
    List.replicate 6 (.cache .proceed) ++
    ([.stored, .publish two, .changed, .send, .receive [oneFile], .cache .proceed, .crash, .start,
      .connectFails .connect [created, oneFile], .waitForRetry, .clock 5000001, .elapse,
      .reconnect, .connect, .respond, .receive [oneFile, created]] : List DistributionAction) ++
    List.replicate 6 (.cache .proceed) ++ ([.stored] : List DistributionAction)

end Example

open CacheExample in
theorem distribution_safe_fallback : ∃ s,
    exec (step noDigest Example.clientConfig) (init one) Example.actions = some s ∧
      s.log = [two, one] ∧ s.everPublished = [two, one, one] ∧ two.version ≤ s.current.version ∧
      Covers noDigest 60 s.cache.clock s.cache.disk.live two.version := by
  obtain ⟨s, hExec, hLog, hEver, hPublished⟩ :
      ∃ s, exec (step noDigest Example.clientConfig) (init one) Example.actions = some s ∧
      s.log = [two, one] ∧ s.everPublished = [two, one, one] ∧ s.published = some two := by
    decide +kernel
  obtain ⟨-, -, hCurrent, hCovers, -⟩ := distribution_safe hExec
  exact ⟨s, hExec, hLog, hEver, (hCurrent two hPublished).2.1, hCovers two (by simp [hEver])⟩

end Distribution

end TunnelProxy.Control
