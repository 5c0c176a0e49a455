import Vigil.RingPoller.Termination

/-!
# Runs of a polled ring

A run is a list of operations that callers carry out one after the other, over any kernel.

- `Moment`: a polled ring and the world that it lives in, between two operations or within one;
- `Operation`, `Moment.after`, `Moment.answer`, `Moment.run`: what callers do, and what it leads to;
- `Moment.prepared`: all requests that were ever queued, in order, whether the kernel has taken them or not;
- `Sighting`: a moment at which a completion is looked at, and `Moment.walks`, the sightings of a run, walk by walk;
- `Moment.asks`: the moments of a run at which room for a request is asked for.
-/

namespace Vigil

/-- Tells a ring's message. -/
def World.noted {K : Kernel} (w : World K) (m : Message) : World K :=
  { w with process := w.process.noted (.backend .ring m) }

/-! ## What an exchange brought -/

namespace Exchange

/-- The requests that the kernel took. -/
def taken : Exchange → List Submission
  | ⟨.ringSubmit requests, .ok n, _⟩ => requests.take n
  | _ => []

/-- The completions that the kernel added. -/
def arrived : Exchange → List Completion
  | ⟨.ringWait _ _, .ok cs, _⟩ => cs
  | _ => []

/-- The number of completions whose room was given back, if the call was for that. -/
def advance : Exchange → List Nat
  | ⟨.ringAdvance n, _, _⟩ => [n]
  | _ => []

end Exchange

namespace RingPoller

variable {K : Kernel}

/-! ## Moments and operations -/

/-- A polled ring, and the world that it lives in. -/
structure Moment (K : Kernel) where
  poller : RingPoller
  world : World K

/-- What callers can do with a polled ring. Each wait comes with its buffer. -/
inductive Operation where
  | add (fd : Descriptor) (event : Event) (mode : Mode)
  | modify (fd : Descriptor) (event : Event) (mode : Mode)
  | remove (fd : Descriptor)
  | wake
  | wait (buffer : Buffer) (timeout : Timeout)

/-- What the caller of an operation is left with: a code, and the records in the buffer of a wait. -/
structure Answer where
  code : Code := Code.success
  records : List Record := []
  deriving DecidableEq

/-- Carries out an operation. -/
def perform (p : RingPoller) : Operation → Sys K (Answer × RingPoller)
  | .add fd e mode => do
    let (code, p) ← p.add fd e mode
    pure ({ code }, p)
  | .modify fd e mode => do
    let (code, p) ← p.modify fd e mode
    pure ({ code }, p)
  | .remove fd => do
    let (code, p) ← p.remove fd
    pure ({ code }, p)
  | .wake => do pure ({}, ← p.wake)
  | .wait b timeout => do
    let (code, p, b) ← p.wait b timeout
    pure ({ code, records := b.raw }, p)

/-- Whether there is room for a request, once those that are queued are handed over if need be. -/
def grants (p : RingPoller) (w : World K) : Bool := (p.reserve w).1.ring.hasRoom

namespace Moment

/-- A ring with queues of some capacity, right after it was created in the kernel. -/
def created (capacity : Nat) (s : K.State) : Moment K :=
  let r := init { ring := { capacity } } { kernel := s }
  ⟨r.1.2, r.2⟩

/-- The moment after an operation. -/
def after (m : Moment K) (o : Operation) : Moment K :=
  let r := m.poller.perform o m.world
  ⟨r.1.2, r.2⟩

/-- What the caller of an operation is left with. -/
def answer (m : Moment K) (o : Operation) : Answer := (m.poller.perform o m.world).1.1

/-- The moment after several operations. -/
def run (m : Moment K) (os : List Operation) : Moment K := os.foldl after m

/-- The records that the waits of a run leave in their buffers. -/
def delivered (m : Moment K) : List Operation → List Record
  | [] => []
  | o :: os => (m.answer o).records ++ (m.after o).delivered os

/-! ## What the history shows -/

/-- All requests that were ever queued: those that the kernel took, and those that are queued still. -/
def prepared (m : Moment K) : List Submission :=
  m.world.trace.flatMap Exchange.taken ++ m.poller.ring.pending

/-- How many requests were ever queued that watch something. -/
def armed (m : Moment K) : Nat := (armedTokens m.prepared).length

/-- All completions that the kernel ever added. -/
def arrived (m : Moment K) : List Completion := m.world.trace.flatMap Exchange.arrived

/-- The numbers of completions whose room was given back, walk by walk. -/
def advances (m : Moment K) : List Nat := m.world.trace.flatMap Exchange.advance

/-- Whether there is room for a request, once those that are queued are handed over if need be. -/
def grants (m : Moment K) : Bool := m.poller.grants m.world

end Moment

/-! ## Sightings -/

/-- A moment at which a completion is looked at. -/
structure Sighting (K : Kernel) extends Moment K where
  completion : Completion

namespace Sighting

/-- The moment when the completion is consumed, and its registration not yet armed again. -/
def consumed (x : Sighting K) : Moment K := ⟨(x.poller.consume x.completion).poller, x.world⟩

/-- The moment when the next completion is looked at. -/
def next (x : Sighting K) : Moment K :=
  let r := x.consumed.poller.renew (x.poller.consume x.completion).rearm x.world
  ⟨r.1, r.2⟩

/-- The record that the completion becomes, if it becomes one. A completion that means nothing, one of a request that
is no longer in force and one that only says that its request was canceled become none. -/
def record (x : Sighting K) : Option Record :=
  if x.completion.token = ignoreToken then
    none
  else if x.completion.token = wakeToken then
    some (.poll ⟨0, notifyKey⟩)
  else do
    let fd ← x.poller.owners.get? x.completion.token
    let r ← x.poller.registrations.get? fd
    if x.completion.result = -Code.canceled then
      none
    else
      some (.poll ⟨if x.completion.result < 0 then Mask.error else x.completion.result.toUInt32, r.event.key⟩)

end Sighting

/-- The sightings of a walk over completions, until there is no room for another record. -/
def walk : List Completion → Nat → Moment K → List (Sighting K)
  | [], _, _ => []
  | _ :: _, 0, _ => []
  | c :: cs, room + 1, m =>
    let x : Sighting K := ⟨m, c⟩
    x :: walk cs (if x.record.isSome then room else room + 1) x.next

/-- The walk of one round of a wait, if the kernel's answer lets it come to one. -/
def Round.walks (d : Deadline) (s : Round) (w : World K) : List (List (Sighting K)) :=
  let r := call (.ringWait s.poller.ring.completed.length (d.timespec (K.clock w.kernel))) w
  match r.1 with
  | .error _ => []
  | .ok cs =>
    let p := { s.poller with ring := s.poller.ring.arrive cs }
    [walk p.ring.completed Buffer.capacity ⟨p, r.2⟩]

/-- The walks of a wait, in at most `n` more rounds. -/
def Round.walksIn (d : Deadline) : Nat → Round → World K → List (List (Sighting K))
  | 0, _, _ => []
  | n + 1, s, w =>
    if s.progress = .waiting then s.walks d w ++ walksIn d n (round d s w).1 (round d s w).2 else []

namespace Moment

/-- The walks of an operation. -/
def walksOf (m : Moment K) : Operation → List (List (Sighting K))
  | .wait b timeout =>
    let w := m.world.noted (.wait m.poller.fd timeout)
    Round.walksIn (Deadline.after (K.clock w.kernel) timeout) (w.patience + 2) ⟨m.poller, b, .waiting⟩ w
  | _ => []

/-- The walks of a run. -/
def walks (m : Moment K) : List Operation → List (List (Sighting K))
  | [] => []
  | o :: os => m.walksOf o ++ (m.after o).walks os

/-- All sightings of a run. -/
def sightings (m : Moment K) (os : List Operation) : List (Sighting K) := (m.walks os).flatten

/-! ## Asking for room -/

/-- The moments at which arming a registration asks for room: one, if there is anything to watch. -/
def asksToArm (m : Moment K) (r : Registration) : List (Moment K) :=
  if r.event.conditions = 0 then [] else [m]

/-- The moments at which canceling a request asks for room: one, if there is a request. -/
def asksToCancel (m : Moment K) (r : Registration) : List (Moment K) :=
  if r.token = ignoreToken then [] else [⟨{ m.poller with owners := m.poller.owners.erase r.token }, m.world⟩]

/-- The moment after a request was canceled. -/
def canceled (m : Moment K) (r : Registration) : Moment K :=
  let s := m.poller.cancel r m.world
  ⟨s.1, s.2⟩

end Moment

/-- The moments at which going on from a sighting asks for room. -/
def Sighting.asks (x : Sighting K) : List (Moment K) :=
  match (x.poller.consume x.completion).rearm with
  | none => []
  | some (_, r) => x.consumed.asksToArm r

namespace Moment

/-- The moments of an operation at which room for a request is asked for. -/
def asksOf (m : Moment K) : Operation → List (Moment K)
  | .add fd e mode =>
    let m : Moment K := ⟨m.poller, m.world.noted (.register .add none fd e mode)⟩
    if mode = .level || (m.poller.registrations.get? fd).isSome then [] else m.asksToArm ⟨e, mode, ignoreToken⟩
  | .modify fd e mode =>
    let m : Moment K := ⟨m.poller, m.world.noted (.register .modify none fd e mode)⟩
    match m.poller.registrations.get? fd with
    | none => []
    | some old =>
      if mode = .level then [] else m.asksToCancel old ++ (m.canceled old).asksToArm ⟨e, mode, ignoreToken⟩
  | .remove fd =>
    let m : Moment K := ⟨m.poller, m.world.noted (.remove none fd)⟩
    match m.poller.registrations.get? fd with
    | none => []
    | some old => m.asksToCancel old
  | .wake => if m.poller.wakeable then [⟨m.poller, m.world.noted (.wake m.poller.fd)⟩] else []
  | .wait b timeout => (m.walksOf (.wait b timeout)).flatten.flatMap Sighting.asks

/-- The moments of a run at which room for a request is asked for. -/
def asks (m : Moment K) : List Operation → List (Moment K)
  | [] => []
  | o :: os => m.asksOf o ++ (m.after o).asks os

end Moment

theorem Sighting.next_eq_consumed {x : Sighting K} (h : (x.poller.consume x.completion).rearm = none) :
    x.next = x.consumed := by
  unfold next
  rw [h]
  rfl

/-! ## Operations in a world -/

theorem note_apply (m : Message) (w : World K) : note m w = ((), w.noted m) := rfl

theorem add_apply (p : RingPoller) (fd : Descriptor) (e : Event) (mode : Mode) (w : World K) :
    p.add fd e mode w =
      let v := w.noted (.register .add none fd e mode)
      if mode = .level then ((Code.invalid, p), v)
      else if (p.registrations.get? fd).isSome then ((Code.alreadyExists, p), v)
      else
        let r := p.arm fd ⟨e, mode, ignoreToken⟩ v
        if r.1.isStarved fd then ((Code.busy, { r.1 with registrations := r.1.registrations.erase fd }), r.2)
        else r.1.submit r.2 := by
  simp only [add, Sys.bind_apply, Sys.ite_apply, Sys.pure_apply]
  rfl

theorem modify_apply (p : RingPoller) (fd : Descriptor) (e : Event) (mode : Mode) (w : World K) :
    p.modify fd e mode w =
      let v := w.noted (.register .modify none fd e mode)
      if mode = .level then ((Code.invalid, p), v)
      else
        match p.registrations.get? fd with
        | none => ((Code.noEntry, p), v)
        | some old =>
          let c := p.cancel old v
          let a := c.1.arm fd ⟨e, mode, ignoreToken⟩ c.2
          let r := a.1.submit a.2
          ((if a.1.isStarved fd then Code.busy else r.1.1, r.1.2), r.2) := by
  simp only [modify, Sys.bind_apply, Sys.ite_apply, Sys.pure_apply]
  cases p.registrations.get? fd <;> rfl

/-- What a change that passes its checks does. -/
theorem modify_registered {p : RingPoller} {fd : Descriptor} {old : Registration} {mode : Mode}
    (hr : p.registrations.get? fd = some old) (hm : mode ≠ .level) (e : Event) (w : World K) :
    let c := p.cancel old (w.noted (.register .modify none fd e mode))
    let a := c.1.arm fd ⟨e, mode, ignoreToken⟩ c.2
    p.modify fd e mode w =
      ((if a.1.isStarved fd then Code.busy else (a.1.submit a.2).1.1, (a.1.submit a.2).1.2), (a.1.submit a.2).2) := by
  rw [modify_apply]
  dsimp only
  rw [if_neg hm, hr]

theorem remove_apply (p : RingPoller) (fd : Descriptor) (w : World K) :
    p.remove fd w =
      let v := w.noted (.remove none fd)
      match p.registrations.get? fd with
      | none => ((Code.success, p), v)
      | some old =>
        let c := p.cancel old v
        ({ c.1 with registrations := c.1.registrations.erase fd } : RingPoller).submit c.2 := by
  simp only [remove, Sys.bind_apply]
  cases p.registrations.get? fd <;> rfl

theorem signal_apply (p : RingPoller) (w : World K) :
    p.signal w =
      let r := p.reserve w
      if p.grants w then (r.1.push (.nop wakeToken)).submit r.2 else ((Code.busy, r.1), r.2) := by
  simp only [signal, Sys.bind_apply, Sys.ite_apply, Sys.pure_apply]
  rfl

theorem wake_apply (p : RingPoller) (w : World K) :
    p.wake w =
      let v := w.noted (.wake p.fd)
      if p.wakeable then
        let r := p.signal v
        if r.1.1 ≠ Code.success then (r.1.2, r.2.noted (.failed .wake r.1.1)) else (r.1.2, r.2)
      else (p, v) := by
  simp only [wake, Sys.bind_apply, Sys.ite_apply, Sys.pure_apply, note_apply]

theorem round_apply (d : Deadline) (s : Round) (w : World K) :
    round d s w =
      let r := call (.ringWait s.poller.ring.completed.length (d.timespec (K.clock w.kernel))) w
      s.after d r.1 r.2 := rfl

/-- After an interruption the wait goes on as it is; all other errors end it with an empty buffer. -/
theorem Round.after_error (d : Deadline) (s : Round) (code : Code) (w : World K) :
    let r := s.after d (.error code) w
    r.1.poller = s.poller ∧ (r.2 = w ∨ ∃ message, r.2 = w.noted message) ∧
      (r.1 = s ∨ r.1.progress ≠ .waiting ∧ r.1.buffer.raw = []) := by
  intro r
  have hr : r = s.after d (.error code) w := rfl
  rw [Round.after, Sys.ite_apply, Sys.ite_apply] at hr
  split at hr
  · rw [hr]
    exact ⟨rfl, .inl rfl, .inl rfl⟩
  · split at hr
    · rw [hr]
      exact ⟨rfl, .inl rfl, .inr ⟨(fun he => by cases he), rfl⟩⟩
    · rw [hr]
      exact ⟨rfl, .inr ⟨_, rfl⟩, .inr ⟨(fun he => by cases he), rfl⟩⟩

theorem wait_apply (p : RingPoller) (b : Buffer) (timeout : Timeout) (w : World K) :
    p.wait b timeout w =
      let v := w.noted (.wait p.fd timeout)
      let r := rounds (Deadline.after (K.clock v.kernel) timeout) ⟨p, b, .waiting⟩ v
      match r.1.progress with
      | .ended code => ((code, r.1.poller, r.1.buffer), r.2)
      | _ => ((Code.success, r.1.poller, r.1.buffer), r.2.noted (.fired r.1.poller.fd r.1.buffer.length)) := by
  simp only [wait, Sys.bind_apply, Sys.now_apply, note_apply]
  generalize rounds _ _ _ = r
  cases r.1.progress <;> rfl

end RingPoller

end Vigil
