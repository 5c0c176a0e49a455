import Vigil.CompletionPort.System

/-!
# Queues of completed requests

A `CompletionPort` owns the handle of at most one queue. Each operation is one call of the system and answers with the
error that the call left behind, or with success. A `Rack` is a number of places for owners; handles move between
places, and each is closed where it is when its place is given up.
-/

namespace Vigil

/-- The owner of a queue's handle, or of none. -/
structure CompletionPort where
  handle : CompletionPort.Handle := CompletionPort.noHandle
  deriving DecidableEq, Inhabited

namespace CompletionPort

variable {S : System}

/-- Keeps completions that are reported at once from the queue. -/
def skipQueue : UInt8 := 1

/-- Keeps completions that are reported at once from the file's event. -/
def skipEvent : UInt8 := 2

/-- Closes the handle, if there is one. -/
def reset (p : CompletionPort) : Ops S CompletionPort := do
  if p.handle = noHandle then
    pure p
  else
    note (.closing p.handle)
    let closed ← call (.close p.handle)
    if !closed then note (.closeFailed p.handle (← lastError))
    pure {}

/-- Creates a queue, in place of the one that was owned. -/
def init (p : CompletionPort) : Ops S (WinError × CompletionPort) := do
  let p ← p.reset
  let h ← call (.createQueue invalidHandle noHandle 0 0)
  if h = noHandle then
    let e ← lastError
    note (.createFailed e)
    pure (e, p)
  else
    note (.created h)
    pure (WinError.success, ⟨h⟩)

/-- Has the completions of a file delivered to the queue, under a key. -/
def associate (p : CompletionPort) (file : Handle) (key : Key) : Ops S WinError := do
  note (.associating p.handle file key)
  let h ← call (.createQueue file p.handle key 0)
  if h ≠ p.handle then
    let e ← lastError
    note (.associateFailed file e)
    pure e
  else
    pure WinError.success

/-- Keeps completions of a file that are reported at once from reaching its queue. -/
def skipCompletionOnSuccess (file : Handle) : Ops S WinError := do
  if ← call (.setModes file (skipQueue ||| skipEvent)) then
    pure WinError.success
  else
    let e ← lastError
    note (.setModesFailed file e)
    pure e

/-- Adds a packet. -/
def post (p : CompletionPort) (bytes : UInt32) (key : Key) (overlapped : Address) : Ops S WinError := do
  if ← call (.enqueue p.handle bytes key overlapped) then
    pure WinError.success
  else
    let e ← lastError
    note (.enqueueFailed e)
    pure e

/-- Adds an empty packet under the wake-up key. -/
def wake (p : CompletionPort) : Ops S WinError := p.post 0 notifyKey 0

/-- Takes packets. Running out of time is a success without packets. -/
def getStatus (p : CompletionPort) (capacity timeout : UInt32) (alertable : Bool) :
    Ops S (WinError × List Packet) := do
  let (taken, packets) ← call (.dequeue p.handle capacity timeout alertable)
  if taken then
    pure (WinError.success, packets)
  else
    let e ← lastError
    if e = WinError.timeout then
      pure (WinError.success, [])
    else
      note (.dequeueFailed e)
      pure (e, [])

/-! ## Look-ups -/

/-- The library with the functions of the native interface. -/
def nativeLibrary : String := "ntdll.dll"

/-- The address of a function of the native interface, or nowhere. -/
def findNative (name : String) : Ops S Address := do
  let library ← call (.findModule nativeLibrary)
  if library = noHandle then
    note (.noModule (← lastError))
    pure 0
  else
    let address ← call (.findProcedure library name)
    if address = 0 then note (.noProcedure name (← lastError))
    pure address

/-- Asks for the socket of the provider at the base. -/
def baseQuery : UInt32 := 0x48000022

/-- Asks for the socket that can be polled. Some layered providers answer only this. -/
def pollQuery : UInt32 := 0x4800001D

/-- The socket of the provider at the base, beginning with what is known of it. If no query is answered, the error is
that of the first. -/
def baseSocket (socket known : Socket) : Ops S (WinError × Socket) := do
  let (found, base) ← call (.control socket baseQuery)
  let known := base.getD known
  if found then
    pure (WinError.success, known)
  else
    let e ← lastError
    let (found, base) ← call (.control socket pollQuery)
    let known := base.getD known
    if found then
      pure (WinError.success, known)
    else
      note (.noBaseSocket socket e)
      pure (e, known)

/-! ## Racks -/

/-- Places for owners of queues. -/
abbrev Rack (n : Nat) := Fin n → CompletionPort

namespace Rack

variable {n : Nat}

/-- Only owners without handles. -/
def empty : Rack n := fun _ => {}

/-- Puts an owner into a place. -/
def put (r : Rack n) (i : Fin n) (p : CompletionPort) : Rack n := fun j => if j = i then p else r j

/-- Takes the handle out of a place and into a new owner, which then replaces the owner of another place. -/
def moveConstruct (r : Rack n) (into source : Fin n) : Ops S (Rack n) := do
  let moved := r source
  let r := r.put source {}
  let _ ← (r into).reset
  pure (r.put into moved)

/-- Moves the handle of one place into another one; into its own place nothing moves. -/
def moveAssign (r : Rack n) (into source : Fin n) : Ops S (Rack n) := do
  if into = source then
    pure r
  else
    let _ ← (r into).reset
    pure ((r.put into (r source)).put source {})

/-- Gives up places in order. -/
def drop (r : Rack n) : List (Fin n) → Ops S (Rack n)
  | [] => pure r
  | i :: is => do
    let p ← (r i).reset
    Rack.drop (r.put i p) is

end Rack

end CompletionPort

end Vigil
