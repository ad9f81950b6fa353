import Mathlib.Data.List.Basic

/-!
# The deadline of a response body

`RequestDeadlineBody` passes on the frames of an inner body and fails once its deadline is
over. It polls the inner body first, so the deadline cuts a body only when that has no frame
ready.

* `Sound.poll` — what a poll keeps
* `mem_yielded` — what was yielded was yielded by one of the polls
* `deadline_body_exact` — what a response yields, how it is counted, and when the deadline
  is kept
* `frame_after_deadline` — a frame that is ready at the deadline is yielded
-/

namespace TunnelProxy.Ingress

open List

inductive Poll (α : Type) where
  | pending
  | ready (value : α)

/-- The frames an inner body has still to give, or that it has reported its end. -/
inductive InnerBody (φ ε : Type) where
  | live (frames : List (Except ε φ))
  | ended

/-- A poll: its instant, whether the inner body is ready then, and whether it reports its end
together with its last frame. -/
structure BodyPoll where
  now : Nat
  innerReady : Bool
  reportsEnd : Bool
deriving DecidableEq

inductive BoxError (ε : Type) where
  | inner (error : ε)
  | timedOut (message : String)
deriving DecidableEq

/-- The counters that a response body adds to. -/
structure HttpIngressCounters where
  completedRequests : Nat
  requestTimeouts : Nat

structure RequestDeadlineBody (φ ε : Type) where
  inner : InnerBody φ ε
  deadline : Nat
  counters : HttpIngressCounters
  timeoutRecorded : Bool
  completionRecorded : Bool

variable {φ ε : Type}

namespace InnerBody

def frames : InnerBody φ ε → List (Except ε φ)
  | live frames => frames
  | ended => []

def isEndStream : InnerBody φ ε → Bool
  | live _ => false
  | ended => true

/-- A body that has reported its end stays ended. -/
def pollFrame (p : BodyPoll) : InnerBody φ ε → Poll (Option (Except ε φ)) × InnerBody φ ε
  | ended => (.ready none, ended)
  | live frames =>
    if p.innerReady then
      match frames with
      | [] => (.ready none, ended)
      | frame :: frames =>
        (.ready (some frame), if frames.isEmpty && p.reportsEnd then ended else live frames)
    else (.pending, live frames)

end InnerBody

def deadlineExceeded : BoxError ε := .timedOut "HTTPS response body deadline exceeded"

def passOn (frame : Except ε φ) : Except (BoxError ε) φ := frame.mapError .inner

namespace RequestDeadlineBody

def complete (body : RequestDeadlineBody φ ε) : RequestDeadlineBody φ ε :=
  { body with
    counters.completedRequests := body.counters.completedRequests + 1
    completionRecorded := true }

def new (inner : InnerBody φ ε) (deadline : Nat) (counters : HttpIngressCounters) :
    RequestDeadlineBody φ ε :=
  let body : RequestDeadlineBody φ ε := ⟨inner, deadline, counters, false, false⟩
  if inner.isEndStream then body.complete else body

def pollFrame (body : RequestDeadlineBody φ ε) (p : BodyPoll) :
    Poll (Option (Except (BoxError ε) φ)) × RequestDeadlineBody φ ε :=
  if body.timeoutRecorded then (.ready none, body)
  else
    match body.inner.pollFrame p with
    | (.ready frame, inner) =>
      let completed := match frame with
        | none => true
        | some (.ok _) => inner.isEndStream
        | some (.error _) => false
      let body := { body with inner }
      (.ready (frame.map passOn),
        if completed && !body.completionRecorded then body.complete else body)
    | (.pending, inner) =>
      if body.deadline ≤ p.now then
        (.ready (some (.error deadlineExceeded)),
          { body with
            inner
            counters.requestTimeouts := body.counters.requestTimeouts + 1
            timeoutRecorded := true })
      else (.pending, { body with inner })

end RequestDeadlineBody

/-- A body, with what its polls have yielded. -/
structure Response (φ ε : Type) where
  body : RequestDeadlineBody φ ε
  yielded : List (BodyPoll × Except (BoxError ε) φ)

namespace Response

def new (inner : InnerBody φ ε) (deadline : Nat) (counters : HttpIngressCounters) :
    Response φ ε :=
  ⟨.new inner deadline counters, []⟩

def poll (r : Response φ ε) (p : BodyPoll) : Response φ ε :=
  match r.body.pollFrame p with
  | (.ready (some item), body) => ⟨body, r.yielded ++ [(p, item)]⟩
  | (_, body) => ⟨body, r.yielded⟩

def items (r : Response φ ε) : List (Except (BoxError ε) φ) := r.yielded.map (·.2)

/-- What was yielded and what the inner body still has are its `frames`; a body that has ended
did not time out, and one that has not is not counted as completed. -/
structure Sound (frames : List (Except ε φ)) (c : HttpIngressCounters) (r : Response φ ε) :
    Prop where
  passed : ∃ taken, taken ++ r.body.inner.frames = frames ∧
    r.items = taken.map passOn ++ if r.body.timeoutRecorded then [.error deadlineExceeded] else []
  completions : r.body.counters.completedRequests =
    c.completedRequests + r.body.completionRecorded.toNat
  timeouts : r.body.counters.requestTimeouts = c.requestTimeouts + r.body.timeoutRecorded.toNat
  apart : match r.body.inner with
    | .ended => r.body.timeoutRecorded = false
    | .live _ => r.body.completionRecorded = false

variable {frames : List (Except ε φ)} {c : HttpIngressCounters} {r : Response φ ε}

theorem Sound.new (inner : InnerBody φ ε) (deadline : Nat) (c : HttpIngressCounters) :
    Sound inner.frames c (new inner deadline c) := by
  cases inner <;> exact ⟨⟨[], rfl, rfl⟩, rfl, rfl, rfl⟩

theorem Sound.poll (h : Sound frames c r) (p : BodyPoll) : Sound frames c (r.poll p) := by
  obtain ⟨⟨inner, timer, _, timedOut, completed⟩, yielded⟩ := r
  obtain ⟨now, ready, reportsEnd⟩ := p
  cases timedOut with
  | true => exact h
  | false =>
    have hSound := h
    obtain ⟨⟨taken, hFrames, hItems⟩, hCompletions, hTimeouts, hApart⟩ := h
    have hCounted := congrArg (· + 1) hCompletions
    cases inner with
    | ended =>
      cases completed with
      | true => exact hSound
      | false => exact ⟨⟨taken, hFrames, hItems⟩, hCounted, hTimeouts, rfl⟩
    | live rest =>
      obtain rfl : completed = false := hApart
      cases ready with
      | false =>
        -- nothing to pass on: the timer decides
        by_cases hOver : timer ≤ now
        · simp only [Response.poll, RequestDeadlineBody.pollFrame, InnerBody.pollFrame,
            if_pos hOver]
          refine ⟨⟨taken, hFrames, ?_⟩, hCompletions, congrArg (· + 1) hTimeouts, rfl⟩
          simpa [items] using hItems
        · simp only [Response.poll, RequestDeadlineBody.pollFrame, InnerBody.pollFrame,
            if_neg hOver]
          exact hSound
      | true =>
        cases rest with
        | nil => exact ⟨⟨taken, hFrames, hItems⟩, hCounted, hTimeouts, rfl⟩
        | cons frame rest =>
          have hTaken : (taken ++ [frame]) ++ rest = frames := by
            simpa [InnerBody.frames] using hFrames
          let p : BodyPoll := ⟨now, true, reportsEnd⟩
          have hPassed : (yielded ++ [(p, passOn frame)]).map (·.2) =
              (taken ++ [frame]).map passOn ++ [] := by
            simpa [items] using hItems
          -- with its last frame the body may end, which counts unless the frame is an error
          cases rest with
          | cons => cases frame <;> exact ⟨⟨_, hTaken, hPassed⟩, hCompletions, hTimeouts, rfl⟩
          | nil =>
            cases reportsEnd with
            | false => cases frame <;> exact ⟨⟨_, hTaken, hPassed⟩, hCompletions, hTimeouts, rfl⟩
            | true =>
              cases frame with
              | ok => exact ⟨⟨_, hTaken, hPassed⟩, hCounted, hTimeouts, rfl⟩
              | error => exact ⟨⟨_, hTaken, hPassed⟩, hCompletions, hTimeouts, rfl⟩

/-! ## Which poll yields a frame -/

/-- The inner body has this data frame ready, and the response has not timed out. -/
def DataReady (r : Response φ ε) (p : BodyPoll) (frame : φ) : Prop :=
  r.body.timeoutRecorded = false ∧ p.innerReady = true ∧
    ∃ rest, r.body.inner = .live (.ok frame :: rest)

theorem pollFrame_data {p : BodyPoll} {frame : φ} :
    (r.body.pollFrame p).1 = .ready (some (.ok frame)) ↔ r.DataReady p frame := by
  unfold DataReady RequestDeadlineBody.pollFrame
  cases r.body.timeoutRecorded with
  | true => simp
  | false =>
    cases r.body.inner with
    | ended => simp [InnerBody.pollFrame]
    | live frames =>
      cases hReady : p.innerReady with
      | false =>
        by_cases hOver : r.body.deadline ≤ p.now <;> simp [InnerBody.pollFrame, hReady, hOver]
      | true =>
        cases frames with
        | nil => simp [InnerBody.pollFrame, hReady]
        | cons next _ => cases next <;> simp [InnerBody.pollFrame, hReady, passOn, Except.mapError]

theorem mem_poll {p q : BodyPoll} {item : Except (BoxError ε) φ} :
    (p, item) ∈ (r.poll q).yielded ↔
      (p, item) ∈ r.yielded ∨ p = q ∧ (r.body.pollFrame q).1 = .ready (some item) := by
  unfold poll
  split
  · rename_i hPoll
    simp [hPoll, eq_comm]
  · rename_i hNone hPoll
    simp only [hPoll]
    refine (or_iff_left ?_).symm
    rintro ⟨-, rfl⟩
    exact hNone item rfl

/-- What was yielded was yielded by one of the polls. -/
theorem mem_yielded {polls : List BodyPoll} {p : BodyPoll} {item : Except (BoxError ε) φ} :
    (p, item) ∈ (polls.foldl poll r).yielded ↔ (p, item) ∈ r.yielded ∨
      ∃ before after, polls = before ++ p :: after ∧
        ((before.foldl poll r).body.pollFrame p).1 = .ready (some item) := by
  induction polls generalizing r with
  | nil => simp
  | cons q rest ih =>
    rw [foldl_cons, ih, mem_poll, or_assoc]
    refine or_congr_right ⟨?_, ?_⟩
    · rintro (⟨rfl, hItem⟩ | ⟨before, after, rfl, hItem⟩)
      · exact ⟨[], rest, rfl, hItem⟩
      · exact ⟨q :: before, after, rfl, hItem⟩
    · rintro ⟨before, after, hPolls, hItem⟩
      cases before with
      | nil =>
        cases hPolls
        exact .inl ⟨rfl, hItem⟩
      | cons =>
        cases hPolls
        exact .inr ⟨_, after, rfl, hItem⟩

/-- **A response body with a deadline.** For every inner body and all polls the items are the
first of its frames, in order, and after them at most the one timeout error; and the response
adds at most one to one of the two counters, and to the completed ones only when all frames
were yielded. Every data frame is yielded before the deadline if and only if the inner body
has none ready at a poll at or after the deadline, up to the timeout. -/
theorem deadline_body_exact (inner : InnerBody φ ε) (deadline : Nat) (c : HttpIngressCounters)
    (polls : List BodyPoll) :
    let r := polls.foldl poll (new inner deadline c)
    (∃ taken, taken <+: inner.frames ∧ (r.items = taken.map passOn ∨
      r.items = taken.map passOn ++ [.error deadlineExceeded])) ∧
    (∃ completed timedOut, r.body.counters.completedRequests = c.completedRequests + completed ∧
      r.body.counters.requestTimeouts = c.requestTimeouts + timedOut ∧ completed + timedOut ≤ 1 ∧
      (completed = 1 → r.items = inner.frames.map passOn)) ∧
    ((∀ p frame, (p, .ok frame) ∈ r.yielded → p.now < deadline) ↔
      ∀ before p after, polls = before ++ p :: after → deadline ≤ p.now →
        ∀ frame, ¬(before.foldl poll (new inner deadline c)).DataReady p frame) := by
  intro r
  obtain ⟨⟨taken, hFrames, hItems⟩, hCompletions, hTimeouts, hApart⟩ : Sound inner.frames c r :=
    foldlRecOn polls poll (Sound.new inner deadline c) fun _ h p _ => h.poll p
  refine ⟨⟨taken, ⟨_, hFrames⟩, ?_⟩, ⟨_, _, hCompletions, hTimeouts, ?_⟩, ?_, ?_⟩
  · rw [hItems]
    cases r.body.timeoutRecorded with
    | true => exact .inr rfl
    | false => exact .inl (append_nil _)
  · cases hInner : r.body.inner with
    | ended =>
      rw [hInner] at hApart hFrames
      rw [hApart] at hItems ⊢
      obtain rfl : taken = inner.frames := by simpa [InnerBody.frames] using hFrames
      exact ⟨Bool.toNat_le _, fun _ => hItems.trans (append_nil _)⟩
    | live =>
      rw [hInner] at hApart
      rw [hApart]
      exact ⟨by simpa using Bool.toNat_le _, nofun⟩
  · intro hEarly before p after hPolls hLate frame hReady
    have hYielded : (p, .ok frame) ∈ r.yielded :=
      mem_yielded.mpr (.inr ⟨before, after, hPolls, pollFrame_data.mpr hReady⟩)
    exact absurd (hEarly p frame hYielded) (Nat.not_lt.mpr hLate)
  · intro hNone p frame hYielded
    by_contra hLate
    rcases mem_yielded.mp hYielded with hNew | ⟨before, after, hPolls, hItem⟩
    · cases hNew
    · exact hNone before p after hPolls (Nat.not_lt.mp hLate) frame (pollFrame_data.mp hItem)

/-- The deadline is ten, and a frame is passed on at twelve. -/
theorem frame_after_deadline :
    ([⟨12, true, true⟩].foldl poll (new (.live [.ok 1] : InnerBody Nat Nat) 10 ⟨0, 0⟩)).yielded =
      [(⟨12, true, true⟩, .ok 1)] :=
  rfl

end Response

end TunnelProxy.Ingress
