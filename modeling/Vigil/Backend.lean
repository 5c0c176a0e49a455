import Vigil.Epoll
import Vigil.Kqueue
import Vigil.RingPoller.Wait

/-!
# Backends

A `Backend` is a poll set, a polled ring or a filter queue. `Backend.select` creates the first one of a build that can be
initialised, beginning with the preferred one; what fails on the way is given up before the next is tried. Each ring has
queues of its own, with nothing in them at first (`Backend.ofKind`).
-/

namespace Vigil

/-- What backends are made from: what is compiled in, how waits are to be woken, and how many requests a ring queues. -/
structure Setup where
  build : Build
  strategy : WakeStrategy := .native
  capacity : Nat := RingPoller.depth.toNat

/-- What wakes a filter queue: without filters that are triggered by hand it is always a pair of sockets. -/
def Setup.filterStrategy (u : Setup) : WakeStrategy := if u.build.userFilter then u.strategy else .pipe

/-- Something that waits for readiness. -/
inductive Backend where
  | epoll (p : Epoll)
  | ring (p : RingPoller)
  | kqueue (q : Kqueue)
  deriving DecidableEq

namespace Backend

variable {K : Kernel}

/-- The kind of a backend. -/
def kind : Backend → Kind
  | epoll _ => .epoll
  | ring _ => .ring
  | kqueue _ => .kqueue

/-- A backend that is yet to be initialised. -/
def ofKind (u : Setup) : Kind → Backend
  | .epoll => epoll {}
  | .ring => ring { ring := { capacity := u.capacity } }
  | .kqueue => kqueue {}

/-- The descriptor of a backend. -/
def fd : Backend → Descriptor
  | epoll p => p.fd
  | ring p => p.fd
  | kqueue q => q.fd

/-- Initialises a backend. -/
def init (u : Setup) : Backend → Sys K (Code × Backend)
  | epoll p => do
    let (code, p) ← p.init u.strategy
    pure (code, epoll p)
  | ring p => do
    let (code, p) ← p.init
    pure (code, ring p)
  | kqueue q => do
    let (code, q) ← q.init u.filterStrategy
    pure (code, kqueue q)

/-- Gives up a backend. -/
def drop : Backend → Sys K Unit
  | epoll p => p.drop
  | ring p => p.drop
  | kqueue q => q.drop

/-- Adds a registration. -/
def add (fd : Descriptor) (e : Event) (mode : Mode) : Backend → Sys K (Code × Backend)
  | epoll p => do pure (← p.add fd e mode, epoll p)
  | ring p => do
    let (code, p) ← p.add fd e mode
    pure (code, ring p)
  | kqueue q => do pure (← q.add fd e mode, kqueue q)

/-- Changes a registration. -/
def modify (fd : Descriptor) (e : Event) (mode : Mode) : Backend → Sys K (Code × Backend)
  | epoll p => do pure (← p.modify fd e mode, epoll p)
  | ring p => do
    let (code, p) ← p.modify fd e mode
    pure (code, ring p)
  | kqueue q => do pure (← q.modify fd e mode, kqueue q)

/-- Drops a registration. -/
def remove (fd : Descriptor) : Backend → Sys K (Code × Backend)
  | epoll p => do pure (← p.remove fd, epoll p)
  | ring p => do
    let (code, p) ← p.remove fd
    pure (code, ring p)
  | kqueue q => do pure (← q.remove fd, kqueue q)

/-- Waits until something fires, the time is over or the wait is woken, and replaces what is in the buffer. -/
def wait (b : Buffer) (timeout : Timeout) : Backend → Sys K (Code × Backend × Buffer)
  | epoll p => do
    let (code, b) ← p.wait b timeout
    pure (code, epoll p, b)
  | ring p => do
    let (code, p, b) ← p.wait b timeout
    pure (code, ring p, b)
  | kqueue q => do
    let (code, b) ← q.wait b timeout
    pure (code, kqueue q, b)

/-- Wakes a wait, or the next one. -/
def wake : Backend → Sys K Backend
  | epoll p => do
    p.wake
    pure (epoll p)
  | ring p => do pure (ring (← p.wake))
  | kqueue q => do
    q.wake
    pure (kqueue q)

/-- Applies filter changes; only a filter queue takes them. -/
def submit (changes : List Kevent) : Backend → Sys K Code
  | kqueue q => q.submit changes
  | _ => pure Code.invalid

/-! ## Selection -/

/-- Creates a backend of a kind, and gives it up if it cannot be initialised. -/
def attempt (u : Setup) (k : Kind) : Sys K (Option Backend) := do
  note (.trying k)
  let (code, b) ← (ofKind u k).init u
  if code = Code.success then
    pure (some b)
  else
    note (.unavailable k code)
    b.drop
    pure none

/-- Creates the backend of a build with a given name. -/
def selectNamed (u : Setup) (name : String) : Sys K (Option Backend) :=
  match u.build.find? name with
  | some k => attempt u k
  | none => do
    note (.notBuilt name)
    pure none

/-- Creates the first backend of a list that can be initialised. -/
def selectFirst (u : Setup) : List Kind → Sys K (Option Backend)
  | [] => do
    note .noneAvailable
    pure none
  | k :: ks => do
    match ← attempt u k with
    | some b => pure (some b)
    | none => selectFirst u ks

/-- Creates the preferred backend, if one is named, or else the first of the others that can be initialised. -/
def select (u : Setup) (preferred : String) : Sys K (Option Backend) := do
  let rest := u.build.kinds.filter (·.name ≠ preferred)
  if preferred = "" then
    selectFirst u rest
  else
    match ← selectNamed u preferred with
    | some b => pure (some b)
    | none => selectFirst u rest

end Backend

end Vigil
