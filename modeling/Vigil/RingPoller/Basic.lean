import Vigil.Table
import Vigil.World

/-!
# Polling on a ring: registrations

A ring knows single poll requests, not registrations. A `RingPoller` keeps the registrations itself and arms each of
them with a request of its own token. `owners` leads from the token of an armed request back to its descriptor, so a
completion under any other token is stale. Every change cancels the old request before it arms a new one, and hands
all requests to the kernel before it returns.
-/

namespace Vigil

/-- The token of requests whose completions mean nothing, and of registrations that are not armed. -/
def ignoreToken : Token := 0

/-- The token of wake-ups. -/
def wakeToken : Token := 1

/-- The first token that arms a registration. -/
def firstToken : Token := 2

/-- What is to be watched, how often it fires, and the request that watches it. -/
structure Registration where
  event : Event
  mode : Mode
  token : Token := ignoreToken
  deriving DecidableEq

/-- A ring with the registrations that are polled on it. -/
structure RingPoller where
  ring : Ring := {}
  offer : RingOffer := {}
  isReady : Bool := false
  registrations : Table Descriptor Registration := {}
  owners : Table Token Descriptor := {}
  nextToken : Token := firstToken
  wakeable : Bool := false
  deriving DecidableEq

namespace RingPoller

variable {K : Kernel}

/-- Tells something about a ring. -/
def note (m : Message) : Sys K Unit := Vigil.note (.backend .ring m)

/-- The descriptor of the ring, once there is one. -/
def fd (p : RingPoller) : Descriptor := if p.isReady then p.offer.fd else noDescriptor

/-! ## Requests -/

/-- Hands the queued requests to the kernel. -/
def submit (p : RingPoller) : Sys K (Code × RingPoller) := do
  match ← insist interrupted (call (.ringSubmit p.ring.pending)) with
  | .ok n => pure (Code.success, { p with ring := p.ring.taken n })
  | .error code =>
    note (.failed .ringSubmit code)
    pure (code, p)

/-- Makes room for a request, if need be by handing over those that are queued. -/
def reserve (p : RingPoller) : Sys K RingPoller := do
  if p.ring.hasRoom then
    pure p
  else
    let (_, p) ← p.submit
    pure p

/-- Queues a request. -/
def push (p : RingPoller) (s : Submission) : RingPoller := { p with ring := p.ring.push s }

/-- The request that watches a registration under a token. -/
def request (fd : Descriptor) (r : Registration) (t : Token) : Submission :=
  if r.mode = .edge then .pollMultishot fd r.event.conditions t else .pollAdd fd r.event.conditions t

/-- Stores a registration that is not armed. -/
def store (p : RingPoller) (fd : Descriptor) (r : Registration) : RingPoller :=
  { p with registrations := p.registrations.insert fd { r with token := ignoreToken } }

/-- Stores a registration that is armed under the next token. -/
def storeArmed (p : RingPoller) (fd : Descriptor) (r : Registration) : RingPoller :=
  { p.push (request fd r p.nextToken) with
    registrations := p.registrations.insert fd { r with token := p.nextToken }
    owners := p.owners.insert p.nextToken fd
    nextToken := p.nextToken + 1 }

/-- Stores a registration, armed if it watches anything and there is room for a request. -/
def arm (p : RingPoller) (fd : Descriptor) (r : Registration) : Sys K RingPoller := do
  if r.event.conditions = 0 then
    pure (p.store fd r)
  else
    let p ← p.reserve
    pure (if p.ring.hasRoom then p.storeArmed fd r else p.store fd r)

/-- Forgets the request of a registration, and asks the kernel to cancel it if there is room to ask. -/
def cancel (p : RingPoller) (r : Registration) : Sys K RingPoller := do
  if r.token = ignoreToken then
    pure p
  else
    let p ← { p with owners := p.owners.erase r.token }.reserve
    pure (if p.ring.hasRoom then p.push (.pollRemove r.token ignoreToken) else p)

/-- Whether a descriptor is registered with an interest that is not armed. -/
def isStarved (p : RingPoller) (fd : Descriptor) : Bool :=
  (p.registrations.get? fd).any fun r => r.event.conditions != 0 && r.token == ignoreToken

/-! ## Registrations -/

/-- Adds a registration; one that could not be armed is dropped again. -/
def add (p : RingPoller) (fd : Descriptor) (e : Event) (mode : Mode) : Sys K (Code × RingPoller) := do
  note (.register .add none fd e mode)
  if mode = .level then
    pure (Code.invalid, p)
  else if (p.registrations.get? fd).isSome then
    pure (Code.alreadyExists, p)
  else
    let p ← p.arm fd ⟨e, mode, ignoreToken⟩
    if p.isStarved fd then
      pure (Code.busy, { p with registrations := p.registrations.erase fd })
    else
      p.submit

/-- Changes a registration; one that could not be armed stays, disarmed. -/
def modify (p : RingPoller) (fd : Descriptor) (e : Event) (mode : Mode) : Sys K (Code × RingPoller) := do
  note (.register .modify none fd e mode)
  if mode = .level then
    pure (Code.invalid, p)
  else
    match p.registrations.get? fd with
    | none => pure (Code.noEntry, p)
    | some old =>
      let p ← p.cancel old
      let p ← p.arm fd ⟨e, mode, ignoreToken⟩
      let starved := p.isStarved fd
      let (code, p) ← p.submit
      pure (if starved then Code.busy else code, p)

/-- Drops a registration; one that is not there counts as dropped. -/
def remove (p : RingPoller) (fd : Descriptor) : Sys K (Code × RingPoller) := do
  note (.remove none fd)
  match p.registrations.get? fd with
  | none => pure (Code.success, p)
  | some old =>
    let p ← p.cancel old
    { p with registrations := p.registrations.erase fd }.submit

/-! ## Waking -/

/-- Queues a request that completes at once, and stays queued as a completion until a wait consumes it. -/
def signal (p : RingPoller) : Sys K (Code × RingPoller) := do
  let p ← p.reserve
  if p.ring.hasRoom then
    (p.push (.nop wakeToken)).submit
  else
    pure (Code.busy, p)

/-- Wakes a wait, or the next one. -/
def wake (p : RingPoller) : Sys K RingPoller := do
  note (.wake p.fd)
  if p.wakeable then
    let (code, p) ← p.signal
    if code ≠ Code.success then note (.failed .wake code)
    pure p
  else
    pure p

/-! ## Life -/

/-- The number of requests that a ring is created for. -/
def depth : UInt32 := 256

/-- The feature of rings that take a timeout with the wait itself. Without it a timed wait has to queue a request,
which would race with other submitters. -/
def timedWait : UInt32 := 256

/-- A ring that was created has nothing in its queues. A success without an offer leaves the former one in force. -/
def opened (p : RingPoller) : Option RingOffer → RingPoller
  | some offer => { p with ring := { capacity := p.ring.capacity }, offer := offer, isReady := true }
  | none => { p with isReady := true }

/-- Creates the ring in the kernel. -/
def init (p : RingPoller) : Sys K (Code × RingPoller) := do
  match ← call (.ringCreate depth 0) with
  | .error code =>
    note (.failed .ringCreate code)
    pure (code, p)
  | .ok offer =>
    let p := p.opened offer
    if p.offer.features &&& timedWait = 0 then
      note .lacksTimedWait
      pure (Code.unsupported, p)
    else
      note (.ready depth)
      pure (Code.success, { p with wakeable := true })

/-- Gives up a ring. -/
def drop (p : RingPoller) : Sys K Unit := do
  note (.dropped p.fd)
  if p.isReady then call (.ringExit p.offer.fd)

end RingPoller

end Vigil
