import Vigil.Event
import Vigil.Hex
import Vigil.Logging
import Vigil.Note
import Vigil.CompletionPort.Status

/-!
# The system under completion queues

- `Call` and `Reply`: what is asked of the system, and what it answers;
- `System`: any system, with the error that its last failed call left behind;
- `World` and `Ops`: a system with its history, and programs over it.
-/

namespace Vigil.CompletionPort

/-- Names something that the system keeps; zero names nothing. -/
abbrev Handle := UInt64

/-- Names nothing. -/
def noHandle : Handle := 0

/-- Stands for no file in particular. -/
def invalidHandle : Handle := 0xFFFFFFFFFFFFFFFF

/-- Where something lies in memory; zero for nowhere. -/
abbrev Address := UInt64

/-- A socket. -/
abbrev Socket := UInt64

/-- A completed request, as a queue delivers it. -/
structure Packet where
  key : Key
  overlapped : Address
  internal : UInt64
  bytes : UInt32
  deriving DecidableEq

/-! ## Calls -/

/-- A call of the system, with its arguments. -/
inductive Call where
  /-- Create a queue, or associate a file with one. -/
  | createQueue (file queue : Handle) (key : Key) (threads : UInt32)
  /-- Take packets from a queue. -/
  | dequeue (queue : Handle) (capacity timeout : UInt32) (alertable : Bool)
  /-- Add a packet to a queue. -/
  | enqueue (queue : Handle) (bytes : UInt32) (key : Key) (overlapped : Address)
  /-- Set which completions of a file reach its queue. -/
  | setModes (file : Handle) (flags : UInt8)
  /-- Close a handle. -/
  | close (handle : Handle)
  /-- Find a loaded library. -/
  | findModule (name : String)
  /-- Find a function of a library. -/
  | findProcedure (library : Handle) (name : String)
  /-- Ask the provider of a socket. -/
  | control (socket : Socket) (code : UInt32)
  deriving DecidableEq

/-- The kind of answer to a call. -/
@[reducible] def Reply : Call → Type
  | .createQueue .. => Handle
  /- Whether the call succeeded, and the packets that it stored in either case. -/
  | .dequeue .. => Bool × List Packet
  | .enqueue .. => Bool
  | .setModes .. => Bool
  | .close _ => Bool
  | .findModule _ => Handle
  | .findProcedure .. => Address
  /- Whether the call succeeded, and the socket that it stored in either case. -/
  | .control .. => Bool × Option Socket

/-- A system: its states, its answers, and the error that the last failed call left behind. -/
structure System where
  State : Type
  answer : State → (c : Call) → Reply c × State
  lastError : State → WinError

/-- A call and its answer. -/
structure Exchange where
  call : Call
  reply : Reply call

/-! ## Notes -/

/-- Something worth telling. -/
inductive Note where
  | closing (queue : Handle)
  | closeFailed (queue : Handle) (error : WinError)
  | createFailed (error : WinError)
  | created (queue : Handle)
  | associating (queue file : Handle) (key : Key)
  | associateFailed (file : Handle) (error : WinError)
  | setModesFailed (file : Handle) (error : WinError)
  | enqueueFailed (error : WinError)
  | dequeueFailed (error : WinError)
  | noModule (error : WinError)
  | noProcedure (name : String) (error : WinError)
  | noBaseSocket (socket : Socket) (error : WinError)
  | unknownStatus (status : NtStatus)
  deriving DecidableEq

/-- The text of a note, without where it comes from and without the end of the line. -/
def Note.message : Note → String
  | closing h => "close port=" ++ hexAddress h
  | closeFailed h e => "CloseHandle(" ++ hexAddress h ++ s!") failed: {e}"
  | createFailed e => s!"CreateIoCompletionPort failed: {e}"
  | created h => "new port=" ++ hexAddress h
  | associating h file key => "associate port=" ++ hexAddress h ++ " file=" ++ hexAddress file ++ s!" key={key}"
  | associateFailed file e => "associating " ++ hexAddress file ++ s!" failed: {e}"
  | setModesFailed file e => "SetFileCompletionNotificationModes(" ++ hexAddress file ++ s!") failed: {e}"
  | enqueueFailed e => s!"PostQueuedCompletionStatus failed: {e}"
  | dequeueFailed e => s!"GetQueuedCompletionStatusEx failed: {e}"
  | noModule e => s!"GetModuleHandleW(ntdll) failed: {e}"
  | noProcedure name e => "ntdll!" ++ name ++ s!" not found: {e}"
  | noBaseSocket socket e => s!"no base handle for socket {socket}: {e}"
  | unknownStatus s => "unhandled NTSTATUS 0x" ++ hexPadded 8 s.toUInt32.toNat

/-- The lines that some notes leave. -/
def render (l : Logging) (notes : List Note) : String :=
  String.join (notes.map fun n => l.line ("readyq(iocp): " ++ n.message ++ "\n"))

/-- What is noted when a status is converted to an error. -/
def NtStatus.notes (s : NtStatus) : List Note := if s.toError?.isSome then [] else [.unknownStatus s]

/-! ## Programs -/

/-- A system's state and what happened so far, the oldest first. -/
structure World (S : System) where
  system : S.State
  trace : List Exchange := []
  notes : List Note := []

/-- Programs over a system. -/
abbrev Ops (S : System) (α : Type) : Type := StateM (World S) α

variable {S : System}

/-- Asks the system. -/
def call (c : Call) : Ops S (Reply c) := fun w =>
  let (reply, s) := S.answer w.system c
  (reply, { w with system := s, trace := w.trace ++ [⟨c, reply⟩] })

/-- Tells something. -/
def note (n : Note) : Ops S Unit := fun w => ((), { w with notes := w.notes ++ [n] })

/-- The error that the last failed call left behind. -/
def lastError : Ops S WinError := fun w => (S.lastError w.system, w)

end Vigil.CompletionPort
