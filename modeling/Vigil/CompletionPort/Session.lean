import Vigil.CompletionPort.Basic

/-!
# Sessions on queues of completed requests

A session owns a `Rack`; `Rack.perform` carries out one command on it, and `observe` sets apart what a program
adds to the trace and to the notes.
-/

namespace Vigil.CompletionPort

variable {S : System} {n : Nat}

/-- What a program returned, asked of the system and noted. -/
structure Observed (α : Type) where
  value : α
  exchanges : List Exchange
  notes : List Note

/-- Runs a program, and sets apart what it adds to the world's history. -/
def observe {α : Type} (p : Ops S α) : Ops S (Observed α) := fun w =>
  let (a, w') := p w
  (⟨a, w'.trace.drop w.trace.length, w'.notes.drop w.notes.length⟩, w')

/-- What a rack can be asked to do; owners are named by their place. -/
inductive Command (n : Nat) where
  | init (place : Fin n)
  | associate (place : Fin n) (file : Handle) (key : Key)
  | skip (file : Handle)
  | post (place : Fin n) (bytes : UInt32) (key : Key) (overlapped : Address)
  | wake (place : Fin n)
  | getStatus (place : Fin n) (capacity timeout : UInt32) (alertable : Bool)
  | moveConstruct (into source : Fin n)
  | moveAssign (into source : Fin n)
  | findNative (name : String)
  | baseSocket (socket known : Socket)

/-- What a command leads to. -/
inductive Outcome where
  | error (e : WinError)
  | packets (e : WinError) (ps : List Packet)
  | address (a : Address)
  | socket (e : WinError) (s : Socket)
  | done
  deriving DecidableEq

/-- Carries out a command. -/
def Rack.perform (r : Rack n) : Command n → Ops S (Outcome × Rack n)
  | .init i => do
    let (e, p) ← (r i).init
    pure (.error e, r.put i p)
  | .associate i file key => do pure (.error (← (r i).associate file key), r)
  | .skip file => do pure (.error (← skipCompletionOnSuccess file), r)
  | .post i bytes key overlapped => do pure (.error (← (r i).post bytes key overlapped), r)
  | .wake i => do pure (.error (← (r i).wake), r)
  | .getStatus i capacity timeout alertable => do
    let (e, ps) ← (r i).getStatus capacity timeout alertable
    pure (.packets e ps, r)
  | .moveConstruct into source => do pure (.done, ← r.moveConstruct into source)
  | .moveAssign into source => do pure (.done, ← r.moveAssign into source)
  | .findNative name => do pure (.address (← CompletionPort.findNative name), r)
  | .baseSocket socket known => do
    let (e, s) ← CompletionPort.baseSocket socket known
    pure (.socket e s, r)

/-- Gives up all places, in order. -/
def Rack.dropAll (r : Rack n) : Ops S (Rack n) := r.drop (List.finRange n)

end Vigil.CompletionPort
