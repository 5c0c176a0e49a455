import Vigil.CompletionPort.System
import Vigil.Script

/-!
# Scripted systems

A `Replay` answers each call from a script: the next entry for the service that the call uses, or the service's default
answer when there is none. A failing entry leaves its error behind, which stays until another one does.
-/

namespace Vigil.CompletionPort

/-- The services of a system, one for each form of call. -/
inductive Service where
  | createQueue
  | dequeue
  | enqueue
  | setModes
  | close
  | findModule
  | findProcedure
  | control
  deriving DecidableEq

/-- The service that a call uses. -/
def Call.service : Call → Service
  | createQueue .. => .createQueue
  | dequeue .. => .dequeue
  | enqueue .. => .enqueue
  | setModes .. => .setModes
  | close _ => .close
  | findModule _ => .findModule
  | findProcedure .. => .findProcedure
  | control .. => .control

/-- One scripted answer. Each service looks at the parts that it knows. -/
structure Entry where
  /-- The error to fail with. -/
  error : Option WinError := none
  /-- The handle, address or result to return. -/
  value : Option Int := none
  packets : List Packet := []
  /-- The socket to store, in place of the one that was asked about. -/
  base : Option Socket := none

/-- A script, with the next handle to hand out and the last error. -/
structure Replay where
  script : Script Service Entry := []
  nextHandle : Handle := 4096
  lastError : WinError := WinError.success

namespace Replay

/-- The distance between handles. -/
def handleStep : Handle := 16

/-- A number as a handle, an address or a socket. -/
def word (n : Int) : UInt64 := UInt64.ofInt n

/-- What a call is answered with, given the entry for it if there is one. -/
def respond (r : Replay) (given : Option Entry) : (c : Call) → Reply c × Replay
  | .createQueue _ queue _ _ =>
    let e := given.getD {}
    match e.error, e.value with
    | some _, v => (word (v.getD 0), r)
    | none, some v => (word v, r)
    | none, none =>
      if queue = noHandle then (r.nextHandle, { r with nextHandle := r.nextHandle + handleStep }) else (queue, r)
  | .dequeue _ capacity _ _ =>
    match given with
    | none => ((false, []), { r with lastError := WinError.timeout })
    | some e => ((e.error.isNone, e.packets.take capacity.toNat), r)
  | .enqueue .. => ((given.getD {}).error.isNone, r)
  | .setModes .. => ((given.getD {}).error.isNone, r)
  | .close _ => ((given.getD {}).error.isNone, r)
  | .findModule _ =>
    let e := given.getD {}
    (if e.error.isSome then noHandle else word (e.value.getD 28672), r)
  | .findProcedure .. =>
    let e := given.getD {}
    (if e.error.isSome then 0 else word (e.value.getD 32768), r)
  | .control socket _ =>
    let e := given.getD {}
    match e.error with
    | some _ => ((false, none), r)
    | none => (((e.value.getD 0).toInt32 != -1, some (e.base.getD socket)), r)

/-- Answers a call. -/
def step (r : Replay) (c : Call) : Reply c × Replay :=
  match Script.next? c.service r.script with
  | none => r.respond none c
  | some (e, script) => { r with script := script, lastError := e.error.getD r.lastError }.respond (some e) c

/-- The system of a script. -/
def system : System where
  State := Replay
  answer := step
  lastError := Replay.lastError

/-- A world that begins with a script. -/
def world (r : Replay) : World system := { system := r }

/-- Puts a new script in the place of what is left of the old one. -/
def load (script : Script Service Entry) : Ops system Unit := fun w =>
  let r : Replay := w.system
  ((), { w with system := { r with script := script } })

end Replay

end Vigil.CompletionPort
